import ParticleSim.Checkpoint.Stream
import ParticleSim.Proofs.Checkpoint.Records
import ParticleSim.Proofs.Lists
import ParticleSim.Proofs.OrderedMap

/-!
# Checkpoint — Streams, read back

A stream is spelled from a header and a list of items, one for each record (`Stream.spell`).  A
header and items can be read back from their spelling when lengths and identities are in range
(`Stream.Wellformed`), and no other header and items have that spelling (`Stream.spell_inj`,
`Stream.prefix_of_spell`).

* `Stream.write_eq_put`: a write that succeeds has put out the spelling of one item for each entry
  of the registry, in order.
* `Stream.read_eq_ok`: a read succeeds exactly on a spelling, followed by anything, whose items the
  decoders take and whose identities are distinct.
-/

namespace ParticleSim

/-! ### Outputs that do not fail -/

namespace Emission

theorem eq_put_iff {e : Emission} {bytes : Bytes} :
    e = put bytes ↔ e.failure = none ∧ e.bytes = bytes := by
  cases e
  simp [put, and_comm]

theorem andThen_eq_put {a b : Emission} {bytes : Bytes} :
    a.andThen b = put bytes ↔ ∃ x y, a = put x ∧ b = put y ∧ bytes = x ++ y := by
  obtain ⟨x, f⟩ := a
  obtain ⟨y, g⟩ := b
  cases f <;> simp [andThen, put, eq_comm, and_comm]

theorem sequence_nil_eq_put {bytes : Bytes} : sequence [] = put bytes ↔ bytes = [] := by
  simp [sequence, put, eq_comm]

theorem sequence_cons_eq_put {e : Emission} {es : List Emission} {bytes : Bytes} :
    sequence (e :: es) = put bytes ↔ ∃ x y, e = put x ∧ sequence es = put y ∧ bytes = x ++ y :=
  andThen_eq_put

theorem put_eq_put {x y : Bytes} : put x = put y ↔ x = y := by simp [put]

theorem sized_eq_put {part bytes : Bytes} :
    sized part = put bytes ↔
      part.length < UInt32.size ∧ bytes = Bytes.sized part := by
  rw [sized]
  split
  · next h => simp [put, h, eq_comm]
  · next h => simp [fail, put, h]

theorem fail_ne_put {e : CheckpointError} {bytes : Bytes} : fail e ≠ put bytes := by
  simp [fail, put]

/-- An output that holds everything holds it unchanged. -/
theorem eq_put_of_within {e : Emission} {capacity : Option Nat} {bytes : Bytes}
    (h : e.within capacity = put bytes) : e = put bytes := by
  cases capacity with
  | none => exact h
  | some n =>
      rw [within] at h
      split at h
      · exact h
      · simp [put] at h

end Emission

namespace Stream

/-! ### Spelling -/

/-- A record of a stream, with its identity and its tag. -/
structure Item where
  object : ObjectId
  tag : String
  record : Record

def Item.bytes (i : Item) : Bytes :=
  Bytes.ofU64 i.object.val ++ (Bytes.sized (Text.encode i.tag) ++
    (Bytes.sized i.record.blob ++ Bytes.sized i.record.fields))

/-- The lengths of an item fit their prefixes. -/
structure Item.Fits (i : Item) : Prop where
  tag : (Text.encode i.tag).length < UInt32.size
  blob : i.record.blob.length < UInt32.size
  fields : i.record.fields.length < UInt32.size

def spellHeader (h : Header) : Bytes :=
  magic ++ ([version] ++ (Bytes.sized (Text.encode h.origin.producer) ++
    (Bytes.ofU32 h.origin.rank ++ (Bytes.ofU32 h.origin.world ++
      (Bytes.ofU64 h.cursor ++ Bytes.ofU64 h.count)))))

/-- A whole stream. -/
def spell (h : Header) (items : List Item) : Bytes :=
  spellHeader h ++ (items.flatMap Item.bytes ++ (endMarker ++ Bytes.ofU64 h.count))

/-- Lengths and identities of a header and items are in range. -/
structure Wellformed (h : Header) (items : List Item) : Prop where
  producer : (Text.encode h.origin.producer).length < UInt32.size
  count : items.length = h.count.toNat
  fits : ∀ i ∈ items, i.Fits
  below : ∀ i ∈ items, i.object.val < h.cursor

/-- Lengths of a header and items are in range, whatever the identities. -/
structure Framed (h : Header) (items : List Item) : Prop where
  producer : (Text.encode h.origin.producer).length < UInt32.size
  count : items.length = h.count.toNat
  fits : ∀ i ∈ items, i.Fits

theorem Wellformed.framed {h : Header} {items : List Item} (hw : Wellformed h items) :
    Framed h items :=
  ⟨hw.producer, hw.count, hw.fits⟩

/-! ### Writing -/

theorem header_eq_put {h : Header} {bytes : Bytes} :
    header h = .put bytes ↔
      (Text.encode h.origin.producer).length < UInt32.size ∧ bytes = spellHeader h := by
  simp only [header, Emission.sequence_cons_eq_put, Emission.sequence_nil_eq_put,
    Emission.put_eq_put, Emission.sized_eq_put]
  constructor
  · rintro ⟨_, _, rfl, ⟨_, _, ⟨hp, rfl⟩, ⟨_, _, rfl, rfl, rfl⟩, rfl⟩, rfl⟩
    exact ⟨hp, by simp [spellHeader]⟩
  · rintro ⟨hp, rfl⟩
    exact ⟨_, _, rfl, ⟨_, _, ⟨hp, rfl⟩, ⟨_, _, rfl, rfl, rfl⟩, rfl⟩, by simp [spellHeader]⟩

theorem record_eq_put {id : ObjectId} {tag : String} {r : Record} {bytes : Bytes} :
    record id tag r = .put bytes ↔ (Item.mk id tag r).Fits ∧ bytes = (Item.mk id tag r).bytes := by
  simp only [record, Emission.sequence_cons_eq_put, Emission.sequence_nil_eq_put,
    Emission.put_eq_put, Emission.sized_eq_put]
  constructor
  · rintro ⟨_, _, rfl, ⟨_, _, ⟨ht, rfl⟩, ⟨_, _, ⟨hb, rfl⟩, ⟨_, _, ⟨hf, rfl⟩, rfl, rfl⟩, rfl⟩, rfl⟩, rfl⟩
    exact ⟨⟨ht, hb, hf⟩, by simp [Item.bytes]⟩
  · rintro ⟨⟨ht, hb, hf⟩, rfl⟩
    exact ⟨_, _, rfl, ⟨_, _, ⟨ht, rfl⟩, ⟨_, _, ⟨hb, rfl⟩, ⟨_, _, ⟨hf, rfl⟩, rfl, rfl⟩, rfl⟩, rfl⟩,
      by simp [Item.bytes]⟩

/-- An item is what the live object of a registered identity writes under its tag. -/
structure Item.Writes (store : Store) (e : ObjectId × String) (i : Item) : Prop where
  object : i.object = e.1
  tag : i.tag = e.2
  data : ∃ data, store e.1 = some ⟨e.2, .ok data⟩ ∧ i.record = .ofData data

theorem entry_eq_put {store : Store} {e : ObjectId × String} {bytes : Bytes} :
    entry store e.1 e.2 = .put bytes ↔ ∃ i : Item, i.Writes store e ∧ i.Fits ∧ bytes = i.bytes := by
  obtain ⟨id, tag⟩ := e
  rw [entry]
  constructor
  · intro h
    split at h
    · exact absurd h Emission.fail_ne_put
    · next object ho =>
      split at h
      · exact absurd h Emission.fail_ne_put
      · next ht =>
        split at h
        · exact absurd h Emission.fail_ne_put
        · next data hd =>
          obtain ⟨hf, rfl⟩ := record_eq_put.mp h
          refine ⟨⟨id, tag, .ofData data⟩, ⟨rfl, rfl, data, ?_, rfl⟩, hf, rfl⟩
          obtain ⟨tag', data'⟩ := object
          simp only [ne_eq, Decidable.not_not] at ht hd
          rw [ho, ht, hd]
  · rintro ⟨⟨id', tag', r⟩, ⟨rfl, rfl, data, hs, hr⟩, hf, rfl⟩
    simp only at hs hr
    subst hr
    simp only [hs, ne_eq, not_true_eq_false, if_false]
    exact record_eq_put.mpr ⟨hf, rfl⟩

/-- Entries are written one after the other. -/
theorem entries_eq_put {store : Store} {entries : List (ObjectId × String)} {bytes : Bytes} :
    Emission.sequence (entries.map fun e => entry store e.1 e.2) = .put bytes ↔
      ∃ items, List.Forall₂ (Item.Writes store) entries items ∧ (∀ i ∈ items, i.Fits) ∧
        bytes = items.flatMap Item.bytes := by
  induction entries generalizing bytes with
  | nil => simp [Emission.sequence_nil_eq_put]
  | cons e entries ih =>
      rw [List.map_cons, Emission.sequence_cons_eq_put]
      constructor
      · rintro ⟨_, _, he, hes, rfl⟩
        obtain ⟨i, hw, hf, rfl⟩ := entry_eq_put.mp he
        obtain ⟨items, hws, hfs, rfl⟩ := ih.mp hes
        exact ⟨i :: items, .cons hw hws, List.forall_mem_cons.mpr ⟨hf, hfs⟩, rfl⟩
      · rintro ⟨_, hws, hfs, rfl⟩
        cases hws with
        | cons hw hws =>
            obtain ⟨hf, hfs⟩ := List.forall_mem_cons.mp hfs
            exact ⟨_, _, entry_eq_put.mpr ⟨_, hw, hf, rfl⟩, ih.mpr ⟨_, hws, hfs, rfl⟩, rfl⟩

/-- A write succeeds when the object of every entry of the registry writes an item that fits, and
then puts out the spelling of these items. -/
theorem write_eq_put {origin : Origin} {registry : Registry} {store : Store} {bytes : Bytes} :
    write origin registry store = .put bytes ↔
      (Text.encode origin.producer).length < UInt32.size ∧
      ∃ items, List.Forall₂ (Item.Writes store) registry.entries.entries items ∧
        (∀ i ∈ items, i.Fits) ∧
        bytes = spell ⟨origin, registry.cursor, .ofNat registry.size⟩ items := by
  simp only [write, Emission.sequence_cons_eq_put, Emission.sequence_nil_eq_put, header_eq_put,
    trailer, Emission.put_eq_put]
  constructor
  · rintro ⟨_, _, ⟨hp, rfl⟩, ⟨_, _, he, ⟨_, _, rfl, rfl, rfl⟩, rfl⟩, rfl⟩
    obtain ⟨items, hw, hf, rfl⟩ := entries_eq_put.mp he
    exact ⟨hp, items, hw, hf, by simp [spell]⟩
  · rintro ⟨hp, items, hw, hf, rfl⟩
    exact ⟨_, _, ⟨hp, rfl⟩, ⟨_, _, entries_eq_put.mpr ⟨items, hw, hf, rfl⟩,
      ⟨_, _, rfl, rfl, rfl⟩, rfl⟩, by simp [spell]⟩

/-! ### Reading -/

section Readers

variable {α : Type} {decoders : Decoders α} {input rest : Bytes}

theorem lift_eq_ok {β : Type} {read : ByteReader FormatFault β} {b : β} :
    Reader.lift read input = .ok b rest ↔ read input = .ok b rest := by
  rw [Reader.lift]
  cases read input <;> simp

theorem readHeader_eq_ok {h : Header} :
    readHeader input = .ok h rest ↔
      (Text.encode h.origin.producer).length < UInt32.size ∧ input = spellHeader h ++ rest := by
  refine bind_eq_ok.trans ?_
  constructor
  · rintro ⟨start, _, hs, h₁⟩
    obtain ⟨-, rfl⟩ := ByteReader.exactly_eq_ok.mp (lift_eq_ok.mp hs)
    obtain ⟨rfl, h₂⟩ := check_eq_ok.mp h₁
    obtain ⟨found, _, hv, h₃⟩ := bind_eq_ok.mp h₂
    obtain rfl := ByteReader.u8_eq_ok.mp (lift_eq_ok.mp hv)
    obtain ⟨rfl, h₄⟩ := check_eq_ok.mp h₃
    obtain ⟨producer, _, hp, h₅⟩ := bind_eq_ok.mp h₄
    obtain ⟨hlen, rfl⟩ := ByteReader.text_eq_ok.mp (lift_eq_ok.mp hp)
    obtain ⟨rank, _, hr, h₆⟩ := bind_eq_ok.mp h₅
    obtain rfl := ByteReader.u32_eq_ok.mp (lift_eq_ok.mp hr)
    obtain ⟨world, _, hw, h₇⟩ := bind_eq_ok.mp h₆
    obtain rfl := ByteReader.u32_eq_ok.mp (lift_eq_ok.mp hw)
    obtain ⟨cursor, _, hc, h₈⟩ := bind_eq_ok.mp h₇
    obtain rfl := ByteReader.u64_eq_ok.mp (lift_eq_ok.mp hc)
    obtain ⟨count, _, hn, h₉⟩ := bind_eq_ok.mp h₈
    obtain rfl := ByteReader.u64_eq_ok.mp (lift_eq_ok.mp hn)
    obtain ⟨rfl, rfl⟩ := pure_eq_ok.mp h₉
    exact ⟨hlen, by simp [spellHeader]⟩
  · rintro ⟨hlen, rfl⟩
    simp only [spellHeader, List.append_assoc]
    refine ⟨magic, _, lift_eq_ok.mpr (ByteReader.exactly_eq_ok.mpr ⟨rfl, rfl⟩), ?_⟩
    rw [if_pos rfl]
    refine bind_eq_ok.mpr ⟨version, _, lift_eq_ok.mpr (ByteReader.u8_eq_ok.mpr rfl), ?_⟩
    rw [if_pos rfl]
    refine bind_eq_ok.mpr ⟨_, _, lift_eq_ok.mpr (ByteReader.text_eq_ok.mpr ⟨hlen, rfl⟩), ?_⟩
    refine bind_eq_ok.mpr ⟨_, _, lift_eq_ok.mpr (ByteReader.u32_eq_ok.mpr rfl), ?_⟩
    refine bind_eq_ok.mpr ⟨_, _, lift_eq_ok.mpr (ByteReader.u32_eq_ok.mpr rfl), ?_⟩
    refine bind_eq_ok.mpr ⟨_, _, lift_eq_ok.mpr (ByteReader.u64_eq_ok.mpr rfl), ?_⟩
    exact bind_eq_ok.mpr ⟨_, _, lift_eq_ok.mpr (ByteReader.u64_eq_ok.mpr rfl), rfl⟩

/-- A record is decoded by the decoder of its tag, which has to take all of it. -/
theorem decodeRecord_eq_ok {id : ObjectId} {tag : String} {r : Record} {a : α} :
    decodeRecord decoders id tag r = .ok a ↔
      ∃ decode, decoders.find? tag = some decode ∧
        ∃ r', decode (r.open id) = .ok a r' ∧ r'.blob = [] ∧ r'.fields = [] := by
  rw [decodeRecord]
  constructor
  · intro h
    split at h
    · cases h
    · next decode hd =>
      split at h
      · next a' r' hr =>
        cases h
        obtain ⟨a', r₁, ha, hr₁⟩ := bind_eq_ok.mp hr
        obtain ⟨⟨⟩, r₂, hf, hr₂⟩ := bind_eq_ok.mp hr₁
        obtain ⟨rfl, rfl⟩ := pure_eq_ok.mp hr₂
        obtain ⟨hblob, hfields, rfl⟩ := RecordReader.finish_eq_ok.mp hf
        exact ⟨decode, hd, r₁, ha, hblob, hfields⟩
      · cases h
  · rintro ⟨decode, hd, r', ha, hb, hf⟩
    have hr : (do let a ← decode; RecordReader.finish; return a : RecordReader α) (r.open id) =
        .ok a r' :=
      bind_eq_ok.mpr ⟨a, r', ha, bind_eq_ok.mpr
        ⟨(), r', RecordReader.finish_eq_ok.mpr ⟨hb, hf, rfl⟩, rfl⟩⟩
    simp only [hd, hr]

/-- An item and the slot it becomes. -/
def Item.Decodes (decoders : Decoders α) (i : Item) (e : ObjectId × Slot α) : Prop :=
  ∃ a, decodeRecord decoders i.object i.tag i.record = .ok a ∧ e = (i.object, ⟨i.tag, some a⟩)

theorem insert_eq_ok {staged staged' : Staging α} {id : ObjectId} {tag : String} {a : α} :
    staged.insert id tag a = .ok staged' ↔
      staged'.slots.entries = staged.slots.entries ++ [(id, ⟨tag, some a⟩)] := by
  rw [Staging.insert]
  constructor
  · intro h
    split at h
    · cases h
    · next hc =>
      cases h
      exact OrderedMap.entries_insert_of_not_mem _ (by rwa [OrderedMap.contains_iff] at hc)
  · intro h
    have hn := staged'.slots.nodup
    rw [h, List.map_append, List.nodup_append] at hn
    have hk : id ∉ staged.slots.keys := fun hm => hn.2.2 id hm id (by simp) rfl
    rw [if_neg (by rwa [OrderedMap.contains_iff])]
    obtain ⟨slots⟩ := staged'
    congr 2
    exact OrderedMap.ext ((OrderedMap.entries_insert_of_not_mem _ hk).trans h.symm)

theorem readRecord_eq_ok {cursor : UInt64} {staged staged' : Staging α} :
    readRecord decoders cursor staged input = .ok staged' rest ↔
      ∃ (i : Item) (e : ObjectId × Slot α), i.Fits ∧ i.object.val < cursor ∧ i.Decodes decoders e ∧
        input = i.bytes ++ rest ∧ staged'.slots.entries = staged.slots.entries ++ [e] := by
  refine bind_eq_ok.trans ?_
  constructor
  · rintro ⟨id, _, hid, h₁⟩
    obtain rfl := ByteReader.u64_eq_ok.mp (lift_eq_ok.mp hid)
    obtain ⟨hlt, h₂⟩ := check_eq_ok.mp h₁
    obtain ⟨tag, _, ht, h₃⟩ := bind_eq_ok.mp h₂
    obtain ⟨htag, rfl⟩ := ByteReader.text_eq_ok.mp (lift_eq_ok.mp ht)
    obtain ⟨blob, _, hb, h₄⟩ := bind_eq_ok.mp h₃
    obtain ⟨hblob, rfl⟩ := ByteReader.sized_eq_ok.mp (lift_eq_ok.mp hb)
    obtain ⟨fields, _, hf, h₅⟩ := bind_eq_ok.mp h₄
    obtain ⟨hfields, rfl⟩ := ByteReader.sized_eq_ok.mp (lift_eq_ok.mp hf)
    cases ha : decodeRecord decoders ⟨id⟩ tag ⟨blob, fields⟩ with
    | error e => rw [ha] at h₅; exact absurd h₅ throw_ne_ok
    | ok a =>
        simp only [ha] at h₅
        cases hs : staged.insert ⟨id⟩ tag a with
        | error e => rw [hs] at h₅; exact absurd h₅ throw_ne_ok
        | ok staged₁ =>
            rw [hs] at h₅
            obtain ⟨rfl, rfl⟩ := pure_eq_ok.mp h₅
            exact ⟨⟨⟨id⟩, tag, ⟨blob, fields⟩⟩, _, ⟨htag, hblob, hfields⟩, hlt, ⟨a, ha, rfl⟩,
              by simp [Item.bytes], insert_eq_ok.mp hs⟩
  · rintro ⟨⟨⟨id⟩, tag, ⟨blob, fields⟩⟩, e, ⟨htag, hblob, hfields⟩, hlt, ⟨a, ha, rfl⟩, rfl, hs⟩
    simp only [Item.bytes, List.append_assoc]
    refine ⟨id, _, lift_eq_ok.mpr (ByteReader.u64_eq_ok.mpr rfl), check_eq_ok.mpr ⟨hlt, ?_⟩⟩
    refine bind_eq_ok.mpr ⟨_, _, lift_eq_ok.mpr (ByteReader.text_eq_ok.mpr ⟨htag, rfl⟩), ?_⟩
    refine bind_eq_ok.mpr ⟨_, _, lift_eq_ok.mpr (ByteReader.sized_eq_ok.mpr ⟨hblob, rfl⟩), ?_⟩
    refine bind_eq_ok.mpr ⟨_, _, lift_eq_ok.mpr (ByteReader.sized_eq_ok.mpr ⟨hfields, rfl⟩), ?_⟩
    simp only [ha, insert_eq_ok.mpr hs]
    rfl

/-- Records are read one after the other; each adds a slot. -/
theorem readRecords_eq_ok {cursor : UInt64} {count : Nat} {staged staged' : Staging α} :
    readRecords decoders cursor count staged input = .ok staged' rest ↔
      ∃ items entries, items.length = count ∧ (∀ i ∈ items, i.Fits) ∧
        (∀ i ∈ items, i.object.val < cursor) ∧ List.Forall₂ (Item.Decodes decoders) items entries ∧
        input = items.flatMap Item.bytes ++ rest ∧
        staged'.slots.entries = staged.slots.entries ++ entries := by
  induction count generalizing staged input with
  | zero =>
      refine pure_eq_ok.trans ?_
      constructor
      · rintro ⟨rfl, rfl⟩
        exact ⟨[], [], rfl, by simp, by simp, .nil, rfl, by simp⟩
      · rintro ⟨items, entries, hl, -, -, hd, rfl, he⟩
        obtain rfl := List.length_eq_zero_iff.mp hl
        cases hd
        obtain ⟨slots⟩ := staged
        obtain ⟨slots'⟩ := staged'
        exact ⟨congrArg _ (OrderedMap.ext (by simpa using he.symm)), rfl⟩
  | succ count ih =>
      refine bind_eq_ok.trans ?_
      constructor
      · rintro ⟨staged₁, _, h, hs⟩
        obtain ⟨i, e, hf, hlt, hd, rfl, he⟩ := readRecord_eq_ok.mp h
        obtain ⟨items, entries, hl, hfs, hlts, hds, rfl, hes⟩ := ih.mp hs
        exact ⟨i :: items, e :: entries, by rw [List.length_cons, hl],
          List.forall_mem_cons.mpr ⟨hf, hfs⟩, List.forall_mem_cons.mpr ⟨hlt, hlts⟩, .cons hd hds,
          by simp, by simp [hes, he]⟩
      · rintro ⟨items, entries, hl, hfs, hlts, hds, rfl, hes⟩
        cases hds with
        | nil => cases hl
        | @cons i e items entries hd hds =>
            obtain ⟨hf, hfs⟩ := List.forall_mem_cons.mp hfs
            obtain ⟨hlt, hlts⟩ := List.forall_mem_cons.mp hlts
            -- the first slot alone has no identity twice, since all of them have not
            have hn := staged'.slots.nodup
            rw [hes, List.append_cons, List.map_append] at hn
            refine ⟨⟨⟨staged.slots.entries ++ [e], (List.nodup_append.mp hn).1⟩⟩,
              items.flatMap Item.bytes ++ rest, readRecord_eq_ok.mpr ⟨i, e, hf, hlt, hd, by simp, rfl⟩,
              ih.mpr ⟨items, entries, Nat.succ.inj hl, hfs, hlts, hds, rfl, by simp [hes]⟩⟩

theorem readTrailer_eq_ok {count : UInt64} :
    readTrailer count input = .ok () rest ↔ input = endMarker ++ (Bytes.ofU64 count ++ rest) := by
  refine bind_eq_ok.trans ?_
  constructor
  · rintro ⟨marker, _, hm, h₁⟩
    obtain ⟨-, rfl⟩ := ByteReader.exactly_eq_ok.mp (lift_eq_ok.mp hm)
    obtain ⟨rfl, h₂⟩ := check_eq_ok.mp h₁
    obtain ⟨found, _, hf, h₃⟩ := bind_eq_ok.mp h₂
    obtain rfl := ByteReader.u64_eq_ok.mp (lift_eq_ok.mp hf)
    obtain ⟨rfl, h₄⟩ := check_eq_ok.mp h₃
    obtain ⟨-, rfl⟩ := pure_eq_ok.mp h₄
    rfl
  · rintro rfl
    refine ⟨endMarker, _, lift_eq_ok.mpr (ByteReader.exactly_eq_ok.mpr ⟨rfl, rfl⟩), ?_⟩
    rw [if_pos rfl]
    refine bind_eq_ok.mpr ⟨_, _, lift_eq_ok.mpr (ByteReader.u64_eq_ok.mpr rfl), ?_⟩
    rw [if_pos rfl]
    rfl

/-- A read succeeds exactly on the spelling of a well-formed header and items, followed by anything,
when every item becomes a slot of the result. -/
theorem read_eq_ok {h : Header} {staged : Staging α} :
    read decoders input = .ok (h, staged) rest ↔
      ∃ items, Wellformed h items ∧
        List.Forall₂ (Item.Decodes decoders) items staged.slots.entries ∧
        input = spell h items ++ rest := by
  refine bind_eq_ok.trans ?_
  constructor
  · rintro ⟨h', _, hh, h₁⟩
    obtain ⟨hp, rfl⟩ := readHeader_eq_ok.mp hh
    obtain ⟨staged', _, hs, h₂⟩ := bind_eq_ok.mp h₁
    obtain ⟨items, entries, hl, hf, hlt, hd, rfl, he⟩ := readRecords_eq_ok.mp hs
    obtain ⟨⟨⟩, _, ht, h₃⟩ := bind_eq_ok.mp h₂
    obtain rfl := readTrailer_eq_ok.mp ht
    obtain ⟨h₄, rfl⟩ := pure_eq_ok.mp h₃
    cases h₄
    have he' : staged.slots.entries = entries := he
    exact ⟨items, ⟨hp, hl, hf, hlt⟩, he' ▸ hd, by simp [spell]⟩
  · rintro ⟨items, ⟨hp, hl, hf, hlt⟩, hd, rfl⟩
    simp only [spell, List.append_assoc]
    refine ⟨h, _, readHeader_eq_ok.mpr ⟨hp, rfl⟩, bind_eq_ok.mpr ⟨staged, _,
      readRecords_eq_ok.mpr ⟨items, _, hl, hf, hlt, hd, rfl, rfl⟩, ?_⟩⟩
    exact bind_eq_ok.mpr ⟨(), _, readTrailer_eq_ok.mpr rfl, rfl⟩

end Readers

/-! ### One spelling, one stream -/

theorem sized_append_inj {a b rest rest' : Bytes} (ha : a.length < UInt32.size)
    (hb : b.length < UInt32.size) (h : Bytes.sized a ++ rest = Bytes.sized b ++ rest') :
    a = b ∧ rest = rest' := by
  have ha' : ByteReader.sized (Bytes.sized a ++ rest) = .ok a rest :=
    ByteReader.sized_eq_ok.mpr ⟨ha, rfl⟩
  rw [h, ByteReader.sized_eq_ok.mpr ⟨hb, rfl⟩] at ha'
  cases ha'
  exact ⟨rfl, rfl⟩

theorem encode_injective {s t : String} (h : Text.encode s = Text.encode t) : s = t := by
  have hs := Text.decode_encode s
  rw [h, Text.decode_encode] at hs
  exact (Except.ok.inj hs).symm

theorem ofU64_append_inj {v w : UInt64} {rest rest' : Bytes}
    (h : Bytes.ofU64 v ++ rest = Bytes.ofU64 w ++ rest') : v = w ∧ rest = rest' := by
  have hv : ByteReader.u64 (Bytes.ofU64 v ++ rest) = .ok v rest := ByteReader.u64_eq_ok.mpr rfl
  rw [h, ByteReader.u64_eq_ok.mpr rfl] at hv
  cases hv
  exact ⟨rfl, rfl⟩

theorem Item.bytes_append_inj {i j : Item} {rest rest' : Bytes} (hi : i.Fits) (hj : j.Fits)
    (h : i.bytes ++ rest = j.bytes ++ rest') : i = j ∧ rest = rest' := by
  obtain ⟨⟨id⟩, tag, ⟨blob, fields⟩⟩ := i
  obtain ⟨⟨id'⟩, tag', ⟨blob', fields'⟩⟩ := j
  simp only [Item.bytes, List.append_assoc] at h
  obtain ⟨rfl, h₁⟩ := ofU64_append_inj h
  obtain ⟨ht, h₂⟩ := sized_append_inj hi.tag hj.tag h₁
  obtain ⟨hb, h₃⟩ := sized_append_inj hi.blob hj.blob h₂
  obtain ⟨hf, h₄⟩ := sized_append_inj hi.fields hj.fields h₃
  obtain rfl : tag = tag' := encode_injective ht
  simp only at hb hf
  subst hb hf
  exact ⟨rfl, h₄⟩

/-- What is read from a spelling has its header, and the first of its items: all of them, unless there
are more than the header can count. -/
theorem prefix_of_spell {h h' : Header} {items items' : List Item} {rest rest' : Bytes}
    (hproducer : (Text.encode h.origin.producer).length < UInt32.size) (hf : ∀ i ∈ items, i.Fits)
    (hcount : h.count.toNat ≤ items.length) (hw : Framed h' items')
    (e : spell h items ++ rest = spell h' items' ++ rest') : h = h' ∧ items' <+: items := by
  simp only [spell, List.append_assoc] at e
  have hh : readHeader (spellHeader h ++
      (items.flatMap Item.bytes ++ (endMarker ++ (Bytes.ofU64 h.count ++ rest)))) = .ok h _ :=
    readHeader_eq_ok.mpr ⟨hproducer, rfl⟩
  rw [e, readHeader_eq_ok.mpr ⟨hw.producer, rfl⟩] at hh
  simp only [EStateM.Result.ok.injEq] at hh
  obtain ⟨rfl, hr⟩ := hh
  refine ⟨rfl, ?_⟩
  have hl : items'.length ≤ items.length := hw.count ▸ hcount
  have hf' := hw.fits
  clear hw hcount hproducer e
  induction items' generalizing items with
  | nil => exact List.nil_prefix
  | cons j items' ih =>
      cases items with
      | nil => exact absurd hl (Nat.not_succ_le_zero _)
      | cons i items =>
          simp only [List.flatMap_cons, List.append_assoc] at hr
          obtain ⟨hi, his⟩ := List.forall_mem_cons.mp hf
          obtain ⟨hj, hjs⟩ := List.forall_mem_cons.mp hf'
          obtain ⟨rfl, hitems⟩ := Item.bytes_append_inj hj hi hr
          exact (List.prefix_cons_inj j).mpr (ih his hitems (Nat.le_of_succ_le_succ hl) hjs)

/-- A byte sequence starts with the spelling of at most one header and items whose lengths are in
range. -/
theorem spell_inj {h h' : Header} {items items' : List Item} {rest rest' : Bytes}
    (hw : Framed h items) (hw' : Framed h' items')
    (e : spell h items ++ rest = spell h' items' ++ rest') : h = h' ∧ items = items' := by
  obtain ⟨rfl, hfirst⟩ := prefix_of_spell hw.producer hw.fits (Nat.le_of_eq hw.count.symm) hw' e
  exact ⟨rfl, (hfirst.eq_of_length (hw'.count.trans hw.count.symm)).symm⟩

end Stream

end ParticleSim
