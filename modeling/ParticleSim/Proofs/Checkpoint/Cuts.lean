import ParticleSim.Proofs.Checkpoint.Streams

/-!
# Checkpoint — Streams cut short

A write that fails has put out a part of a stream: as if the items that are missing had been cut
off, whatever they would have been (`Emission.Spells`, `Stream.exists_spells_write`).  And a part of
a stream is no stream, for a stream ends where its header says (`Stream.Framed.read_ne_ok`).

How a reader fails on a part of what it accepts does not depend on what the record decoders do: they
are asked about whole records only, and these they accept.  So nothing but the end of the input is
in the way (`ByteReader.FailsShort`, `Stream.failsShort_read`).

* `Stream.write_rejected`: what a failed write has put out is read by no decoders, and a part of
  what a write has put out is not of the form of a stream.
-/

namespace ParticleSim

/-! ### What a failed output has put out -/

/-- An output puts out `whole`, or fails before it has. -/
def Emission.Spells (e : Emission) (whole : Bytes) : Prop :=
  match e.failure with
  | none => e.bytes = whole
  | some _ => ∃ missing, missing ≠ [] ∧ whole = e.bytes ++ missing

namespace Emission

variable {a b e : Emission} {x y whole : Bytes}

theorem spells_put (bytes : Bytes) : (put bytes).Spells bytes := rfl

theorem spells_fail (error : CheckpointError) (h : whole ≠ []) : (fail error).Spells whole :=
  ⟨whole, h, rfl⟩

theorem Spells.andThen (ha : a.Spells x) (hb : b.Spells y) : (a.andThen b).Spells (x ++ y) := by
  obtain ⟨bytes, failure⟩ := a
  cases failure with
  | some _ =>
      obtain ⟨missing, hne, rfl⟩ := ha
      exact ⟨missing ++ y, by simp [hne], List.append_assoc ..⟩
  | none =>
      obtain rfl : bytes = x := ha
      obtain ⟨bytes', failure'⟩ := b
      cases failure' with
      | some _ =>
          obtain ⟨missing, hne, rfl⟩ := hb
          exact ⟨missing, hne, (List.append_assoc ..).symm⟩
      | none =>
          obtain rfl : bytes' = y := hb
          rfl

theorem spells_nil : (sequence []).Spells [] := rfl

theorem Spells.cons {es : List Emission} (ha : a.Spells x) (hes : (sequence es).Spells y) :
    (sequence (a :: es)).Spells (x ++ y) :=
  ha.andThen hes

/-- What an output with a limit holds in the end is no more. -/
theorem Spells.within (h : e.Spells whole) (capacity : Option Nat) :
    (e.within capacity).Spells whole := by
  cases capacity with
  | none => exact h
  | some n =>
      rw [Emission.within]
      split
      · exact h
      · next hn =>
        have hdrop : e.bytes.drop n ≠ [] := by
          rw [ne_eq, List.drop_eq_nil_iff]
          exact hn
        obtain ⟨missing, hwhole⟩ : ∃ missing, whole = e.bytes ++ missing := by
          rw [Spells] at h
          split at h
          · exact ⟨[], by rw [List.append_nil, h]⟩
          · obtain ⟨missing, -, hwhole⟩ := h
            exact ⟨missing, hwhole⟩
        refine ⟨e.bytes.drop n ++ missing, by simp [hdrop], ?_⟩
        rw [← List.append_assoc, List.take_append_drop, hwhole]

/-- Nothing is put out of a section that is too long, as if it were another one. -/
theorem exists_spells_sized (part : Bytes) :
    ∃ part', part'.length < UInt32.size ∧ (sized part).Spells (Bytes.sized part') := by
  rw [sized]
  split
  · next h => exact ⟨part, h, spells_put _⟩
  · exact ⟨[], by decide, spells_fail _ (by decide)⟩

theorem exists_spells_text (s : String) : ∃ s', (Text.encode s').length < UInt32.size ∧
    (sized (Text.encode s)).Spells (Bytes.sized (Text.encode s')) := by
  rw [sized]
  split
  · next h => exact ⟨s, h, spells_put _⟩
  · exact ⟨"", by decide, spells_fail _ (by decide)⟩

theorem Spells.bytes_eq (h : e.Spells whole) (hok : e.failure = none) : e.bytes = whole := by
  rw [Spells, hok] at h
  exact h

theorem Spells.exists_missing (h : e.Spells whole) (hfail : e.failure ≠ none) :
    ∃ missing, missing ≠ [] ∧ whole = e.bytes ++ missing := by
  obtain ⟨error, herror⟩ := Option.ne_none_iff_exists'.mp hfail
  rw [Spells, herror] at h
  exact h

end Emission

namespace Stream

/-- A header is put out, or the part of one before the text that is too long. -/
theorem exists_spells_header (h : Header) :
    ∃ h' : Header, (Text.encode h'.origin.producer).length < UInt32.size ∧ h'.count = h.count ∧
      (header h).Spells (spellHeader h') := by
  obtain ⟨producer, hp, hs⟩ := Emission.exists_spells_text h.origin.producer
  refine ⟨⟨⟨producer, h.origin.rank, h.origin.world⟩, h.cursor, h.count⟩, hp, rfl, ?_⟩
  have hspells := (Emission.spells_put (magic ++ [version])).cons
    (hs.cons ((Emission.spells_put (Bytes.ofU32 h.origin.rank ++ Bytes.ofU32 h.origin.world ++
      Bytes.ofU64 h.cursor ++ Bytes.ofU64 h.count)).cons Emission.spells_nil))
  simpa [spellHeader, header] using hspells

/-- An item is put out, or a part of one. -/
theorem exists_spells_record (id : ObjectId) (tag : String) (r : Record) :
    ∃ i : Item, i.Fits ∧ (record id tag r).Spells i.bytes := by
  obtain ⟨tag', ht, hst⟩ := Emission.exists_spells_text tag
  obtain ⟨blob, hb, hsb⟩ := Emission.exists_spells_sized r.blob
  obtain ⟨fields, hf, hsf⟩ := Emission.exists_spells_sized r.fields
  refine ⟨⟨id, tag', ⟨blob, fields⟩⟩, ⟨ht, hb, hf⟩, ?_⟩
  have hspells := (Emission.spells_put (Bytes.ofU64 id.val)).cons
    (hst.cons (hsb.cons (hsf.cons Emission.spells_nil)))
  simpa [Item.bytes, record] using hspells

theorem Item.bytes_ne_nil (i : Item) : i.bytes ≠ [] :=
  List.ne_nil_of_length_pos (by simp only [bytes, List.length_append, Bytes.length_ofU64]; omega)

theorem exists_spells_entry (store : Store) (id : ObjectId) (tag : String) :
    ∃ i : Item, i.Fits ∧ (entry store id tag).Spells i.bytes := by
  -- an object that cannot be written leaves nothing, as if any item were missing
  have hfail : ∀ e : CheckpointError, ∃ i : Item, i.Fits ∧ (Emission.fail e).Spells i.bytes :=
    fun e => ⟨⟨⟨0⟩, "", ⟨[], []⟩⟩, ⟨by decide, by decide, by decide⟩,
      Emission.spells_fail e (Item.bytes_ne_nil _)⟩
  rw [entry]
  cases store id with
  | none => exact hfail _
  | some object =>
      simp only
      split
      · exact hfail _
      · cases object.data with
        | error e => exact hfail e
        | ok data => exact exists_spells_record id tag _

theorem exists_spells_entries (store : Store) (entries : List (ObjectId × String)) :
    ∃ items : List Item, items.length = entries.length ∧ (∀ i ∈ items, i.Fits) ∧
      (Emission.sequence (entries.map fun e => entry store e.1 e.2)).Spells
        (items.flatMap Item.bytes) := by
  induction entries with
  | nil => exact ⟨[], rfl, by simp, Emission.spells_nil⟩
  | cons e entries ih =>
      obtain ⟨i, hi, hs⟩ := exists_spells_entry store e.1 e.2
      obtain ⟨items, hl, hf, hss⟩ := ih
      exact ⟨i :: items, by rw [List.length_cons, hl, List.length_cons],
        List.forall_mem_cons.mpr ⟨hi, hf⟩, hs.cons hss⟩

/-- **A write puts out a stream, or a part of one**, whether it fails or not. -/
theorem exists_spells_write (origin : Origin) {registry : Registry} (store : Store)
    (hsize : registry.size < UInt64.size) :
    ∃ h items, Framed h items ∧ (write origin registry store).Spells (spell h items) := by
  obtain ⟨h, hp, hc, hsh⟩ :=
    exists_spells_header ⟨origin, registry.cursor, .ofNat registry.size⟩
  obtain ⟨items, hl, hf, hsi⟩ := exists_spells_entries store registry.entries.entries
  refine ⟨h, items, ⟨hp, ?_, hf⟩, ?_⟩
  · rw [hl, hc]
    exact (UInt64.toNat_ofNat_of_lt' hsize).symm
  · have hspells := hsh.cons (hsi.cons
      ((Emission.spells_put (endMarker ++ Bytes.ofU64 (.ofNat registry.size))).cons
        Emission.spells_nil))
    simpa [spell, write, trailer, hc] using hspells

/-- **A part of a stream is no stream.** -/
theorem Framed.read_ne_ok {h : Header} {items : List Item} (hf : Framed h items)
    {bytes missing : Bytes} (hm : missing ≠ []) (hs : spell h items = bytes ++ missing) {α : Type}
    {decoders : Decoders α} {result : Header × Staging α} {rest : Bytes} :
    read decoders bytes ≠ .ok result rest := by
  intro hr
  obtain ⟨h', staged⟩ := result
  obtain ⟨items', hw, -, rfl⟩ := read_eq_ok.mp hr
  have he : spell h items ++ [] = spell h' items' ++ (rest ++ missing) := by
    rw [List.append_nil, hs, List.append_assoc]
  obtain ⟨rfl, rfl⟩ := spell_inj hf hw.framed he
  simp [hm] at he

end Stream

/-! ### How a reader fails on a part of what it accepts -/

/-- On a part of an input that it accepts, a reader does what it does on the whole, or it fails with
an error of the given kind. -/
def ByteReader.FailsShort {ε α : Type} (kind : ε → Prop) (read : ByteReader ε α) : Prop :=
  ∀ part more a left, read (part ++ more) = .ok a left →
    (∃ left', read part = .ok a left' ∧ left = left' ++ more) ∨
      ∃ e left', read part = .error e left' ∧ kind e

namespace ByteReader

section FailsShort

variable {ε α β : Type} {kind : ε → Prop}

theorem failsShort_pure (a : α) : FailsShort kind (pure a) := by
  intro part more b left h
  obtain ⟨rfl, rfl⟩ := pure_eq_ok.mp h
  exact .inl ⟨part, rfl, rfl⟩

/-- Who accepts nothing accepts no part either. -/
theorem failsShort_throw (e : ε) : FailsShort kind (throw e : ByteReader ε α) :=
  fun _ _ _ _ h => absurd h throw_ne_ok

theorem FailsShort.bind {read : ByteReader ε α} {next : α → ByteReader ε β}
    (h : FailsShort kind read) (hnext : ∀ a, FailsShort kind (next a)) :
    FailsShort kind (read >>= next) := by
  intro part more b left hb
  obtain ⟨a, middle, ha, hb⟩ := bind_eq_ok.mp hb
  rcases h part more a middle ha with ⟨middle', ha', rfl⟩ | ⟨e, middle', he, hk⟩
  · rw [bind_of_ok ha']
    exact hnext a middle' more b left hb
  · exact .inr ⟨e, middle', bind_of_error he next, hk⟩

/-- A check looks at no input. -/
theorem FailsShort.check {p : Prop} [Decidable p] {e : ε} {next : Unit → ByteReader ε β}
    (h : FailsShort kind (next ())) :
    FailsShort kind (if p then next () else throw e >>= next) := by
  split
  · exact h
  · exact (failsShort_throw e).bind fun _ => h

end FailsShort

/-- Any fault at all. -/
abbrev anyFault : FormatFault → Prop := fun _ => True

/-- The next `n` bytes, or a fault that tells how many there are. -/
theorem failsShort_splitAt (n : Nat) (fault : Nat → FormatFault) :
    FailsShort anyFault fun input =>
      let (taken, rest) := input.splitAt n
      if taken.length = n then .ok taken rest else .error (fault taken.length) rest := by
  intro part more taken left h
  simp only [List.splitAt_eq] at h ⊢
  split at h
  · cases h
    by_cases hn : n ≤ part.length
    · refine .inl ⟨part.drop n, ?_, List.drop_append_of_le_length hn⟩
      rw [if_pos (List.length_take_of_le hn), List.take_append_of_le_length hn]
    · have hshort : (part.take n).length ≠ n := by
        rw [List.length_take]
        omega
      exact .inr ⟨_, _, if_neg hshort, trivial⟩
  · cases h

theorem failsShort_exactly (n : Nat) : FailsShort anyFault (exactly n) :=
  failsShort_splitAt n fun _ => .truncated

theorem failsShort_u8 : FailsShort anyFault u8 :=
  (failsShort_exactly 1).bind fun _ => failsShort_pure _

theorem failsShort_u32 : FailsShort anyFault u32 :=
  (failsShort_exactly 4).bind fun _ => failsShort_pure _

theorem failsShort_u64 : FailsShort anyFault u64 :=
  (failsShort_exactly 8).bind fun _ => failsShort_pure _

theorem failsShort_sized : FailsShort anyFault sized :=
  failsShort_u32.bind fun length => failsShort_splitAt length.toNat (.shortSection length.toNat)

theorem failsShort_text : FailsShort anyFault text := by
  refine failsShort_sized.bind fun octets => ?_
  cases Text.decode octets with
  | ok s => exact failsShort_pure s
  | error fault => exact failsShort_throw _

end ByteReader

namespace Stream

open ByteReader

/-- The errors that say that the input is not of the form of a stream. -/
def Malformed : CheckpointError → Prop
  | .streamFormat _ => True
  | _ => False

theorem Malformed.exists_fault {e : CheckpointError} (h : Malformed e) :
    ∃ fault, e = .streamFormat fault := by
  cases e with
  | streamFormat fault => exact ⟨fault, rfl⟩
  | _ => cases h

theorem failsShort_lift {β : Type} {read : ByteReader FormatFault β}
    (h : FailsShort anyFault read) : FailsShort Malformed (Reader.lift read) := by
  intro part more b left hb
  rcases h part more b left (lift_eq_ok.mp hb) with ⟨left', hb', rfl⟩ | ⟨fault, left', hf, -⟩
  · exact .inl ⟨left', lift_eq_ok.mpr hb', rfl⟩
  · exact .inr ⟨.streamFormat fault, left', by rw [Reader.lift, hf], trivial⟩

theorem failsShort_readHeader : FailsShort Malformed readHeader := by
  refine (failsShort_lift (failsShort_exactly 4)).bind fun start => FailsShort.check ?_
  refine (failsShort_lift failsShort_u8).bind fun found => FailsShort.check ?_
  refine (failsShort_lift failsShort_text).bind fun producer => ?_
  refine (failsShort_lift failsShort_u32).bind fun rank => ?_
  refine (failsShort_lift failsShort_u32).bind fun world => ?_
  refine (failsShort_lift failsShort_u64).bind fun cursor => ?_
  exact (failsShort_lift failsShort_u64).bind fun count => failsShort_pure _

section Records

variable {α : Type} (decoders : Decoders α) (cursor : UInt64)

/-- A record is decoded when all of it has been read. -/
theorem failsShort_readRecord (staged : Staging α) :
    FailsShort Malformed (readRecord decoders cursor staged) := by
  refine (failsShort_lift failsShort_u64).bind fun id => FailsShort.check ?_
  refine (failsShort_lift failsShort_text).bind fun tag => ?_
  refine (failsShort_lift failsShort_sized).bind fun blob => ?_
  refine (failsShort_lift failsShort_sized).bind fun fields => ?_
  cases decodeRecord decoders ⟨id⟩ tag ⟨blob, fields⟩ with
  | error e => exact failsShort_throw e
  | ok object =>
      simp only
      cases staged.insert ⟨id⟩ tag object with
      | error e => exact failsShort_throw e
      | ok staged' => exact failsShort_pure staged'

theorem failsShort_readRecords (count : Nat) (staged : Staging α) :
    FailsShort Malformed (readRecords decoders cursor count staged) := by
  induction count generalizing staged with
  | zero => exact failsShort_pure staged
  | succ count ih => exact (failsShort_readRecord decoders cursor staged).bind fun _ => ih _

theorem failsShort_readTrailer (count : UInt64) : FailsShort Malformed (readTrailer count) := by
  refine (failsShort_lift (failsShort_exactly 4)).bind fun marker => FailsShort.check ?_
  refine (failsShort_lift failsShort_u64).bind fun found => ?_
  split
  · exact failsShort_pure ()
  · exact failsShort_throw _

/-- **A reader of streams fails on every part of a stream that it accepts**, and finds it
malformed. -/
theorem failsShort_read : FailsShort Malformed (read decoders) := by
  refine failsShort_readHeader.bind fun h => ?_
  refine (failsShort_readRecords decoders h.cursor h.count.toNat .empty).bind fun staged => ?_
  exact (failsShort_readTrailer h.count).bind fun _ => failsShort_pure _

end Records

/-- **A stream cut short is rejected.**  What a failed write has put out, at an output that holds
any number of bytes, is read by no decoders.  What a write has put out that did not fail is a stream
to its last byte: decoders that read it find every shorter part of it malformed.  The number of
entries is a word, as the length of every table in memory is. -/
theorem write_rejected (origin : Origin) {registry : Registry} (store : Store)
    (hsize : registry.size < UInt64.size) (capacity : Option Nat) {e : Emission}
    (he : (write origin registry store).within capacity = e) :
    (e.failure ≠ none →
      ∀ (α : Type) (decoders : Decoders α), ∃ error rest,
        read decoders e.bytes = .error error rest) ∧
    (e.failure = none →
      ∀ (α : Type) (decoders : Decoders α), (∃ a rest, read decoders e.bytes = .ok a rest) →
        ∀ part, part <+: e.bytes → part ≠ e.bytes →
          ∃ fault rest, read decoders part = .error (.streamFormat fault) rest) := by
  obtain ⟨h, items, hf, hspells⟩ := exists_spells_write origin store hsize
  replace hspells := hspells.within capacity
  rw [he] at hspells
  constructor
  · intro hfail α decoders
    obtain ⟨missing, hm, hs⟩ := hspells.exists_missing hfail
    cases hr : read decoders e.bytes with
    | ok a rest => exact absurd hr (hf.read_ne_ok hm hs)
    | error error rest => exact ⟨error, rest, rfl⟩
  · rintro hok α decoders ⟨a, rest, hr⟩ part ⟨more, hpart⟩ hne
    have hmore : more ≠ [] := by
      rintro rfl
      exact hne (by rw [← hpart, List.append_nil])
    rw [← hpart] at hr
    rcases failsShort_read decoders part more a rest hr with
      ⟨rest', hr', -⟩ | ⟨error, rest', hr', hk⟩
    · -- the part would be a stream itself
      refine absurd hr' (hf.read_ne_ok hmore ?_)
      rw [hpart, hspells.bytes_eq hok]
    · obtain ⟨fault, rfl⟩ := hk.exists_fault
      exact ⟨fault, rest', hr'⟩

/-- Two objects, the second of which is not there: the stream stops behind the record of the first.
Without it the stream is complete, and decoders read it, but not when the trailer is missing. -/
theorem write_rejected_orphan :
    let origin : Origin := ⟨"a", 0, 1⟩
    let store : Store := fun id => if id.val = 0 then some ⟨"a", .ok [.u8 7]⟩ else none
    let half := write origin (.ofList [(⟨0⟩, "a"), (⟨1⟩, "a")] 2) store
    let whole := write origin (.ofList [(⟨0⟩, "a")] 2) store
    let decoders : Decoders UInt8 := .ofList [("a", RecordReader.u8)]
    (half.bytes.length = 56 ∧ ∃ error rest, read decoders half.bytes = .error error rest) ∧
      (whole.bytes.length = 68 ∧ ∃ fault rest,
        read decoders (whole.bytes.take 56) = .error (.streamFormat fault) rest) :=
  ⟨⟨by decide +kernel, (write_rejected _ _ (by decide) none rfl).1 (by decide +kernel) _ _⟩,
    by decide +kernel, (write_rejected _ _ (by decide) none rfl).2 (by decide +kernel) _ _
      ⟨_, _, rfl⟩ _ (List.take_prefix ..) (by decide +kernel)⟩

end Stream

end ParticleSim
