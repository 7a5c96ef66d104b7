import ParticleSim.Proofs.Restore.Acceptance

/-!
# Restores — The order of records

A stream that is cut into a header, records and the rest (`RawStream`) may hold anything in its
records: they need not decode, nor refer to each other properly, nor have identities of their own.
With the same records in another order it is read as the same header and the same objects in that
order (`Stream.read_rearranged`).  The objects of a table determine the simulation that is put
together from them, not their order (`Staging.Holds`), and so a restore takes both streams or
neither, and makes the same simulation of them (`Host.restore_rearranged`).  Which error it reports
does depend on the order: it is the first that is found.
-/

namespace ParticleSim

namespace Stream

/-! ### Streams cut into records -/

/-- Bytes that a section can hold. -/
abbrev Section := { bytes : Bytes // bytes.length < UInt32.size }

/-- A record as it stands in a stream, whatever its sections hold. -/
structure RawRecord where
  object : UInt64
  tag : Section
  blob : Section
  fields : Section

def RawRecord.bytes (r : RawRecord) : Bytes :=
  Bytes.ofU64 r.object ++ (Bytes.sized r.tag ++ (Bytes.sized r.blob ++ Bytes.sized r.fields))

/-- A header as it stands in a stream, whether a reader takes it or not. -/
structure RawHeader where
  magic : { bytes : Bytes // bytes.length = 4 }
  version : UInt8
  producer : Section
  rank : UInt32
  world : UInt32
  cursor : UInt64
  count : UInt64

def RawHeader.bytes (h : RawHeader) : Bytes :=
  h.magic ++ ([h.version] ++ (Bytes.sized h.producer ++ (Bytes.ofU32 h.rank ++
    (Bytes.ofU32 h.world ++ (Bytes.ofU64 h.cursor ++ Bytes.ofU64 h.count)))))

/-- A stream cut into its header, records and the rest.  There are no more records than the header
counts, as a reader would look for the trailer behind those.  The rest begins with the trailer if
the stream is in order. -/
structure RawStream where
  header : RawHeader
  records : List RawRecord
  tail : Bytes
  counted : records.length ≤ header.count.toNat

def RawStream.bytes (x : RawStream) : Bytes :=
  x.header.bytes ++ (x.records.flatMap RawRecord.bytes ++ x.tail)

/-- The same stream but for the order of its records. -/
structure RawStream.Rearranges (x y : RawStream) : Prop where
  header : y.header = x.header
  records : y.records.Perm x.records
  tail : y.tail = x.tail

theorem RawStream.Rearranges.symm {x y : RawStream} (h : x.Rearranges y) : y.Rearranges x :=
  ⟨h.header.symm, h.records.symm, h.tail.symm⟩

/-- A stream with its records from back to front. -/
def RawStream.reverse (x : RawStream) : RawStream :=
  { x with records := x.records.reverse, counted := by simpa using x.counted }

theorem RawStream.rearranges_reverse (x : RawStream) : x.Rearranges x.reverse :=
  ⟨rfl, x.records.reverse_perm, rfl⟩

/-! ### What is read of them -/

section Reading

variable {h : Header} {r : RawRecord} {i : Item} {rest rest' : Bytes}

/-- A record is the spelling of an item. -/
structure RawRecord.Spells (r : RawRecord) (i : Item) : Prop where
  object : r.object = i.object.val
  tag : r.tag.val = Text.encode i.tag
  blob : r.blob.val = i.record.blob
  fields : r.fields.val = i.record.fields

theorem RawRecord.Spells.bytes_eq (hs : r.Spells i) : r.bytes = i.bytes := by
  rw [RawRecord.bytes, Item.bytes, hs.object, hs.tag, hs.blob, hs.fields]

/-- Bytes that start with a record and with an item start with the same. -/
theorem RawRecord.spells_of_append (hi : i.Fits) (e : r.bytes ++ rest = i.bytes ++ rest') :
    r.Spells i ∧ rest = rest' := by
  simp only [RawRecord.bytes, Item.bytes, List.append_assoc] at e
  obtain ⟨hobject, e⟩ := ofU64_append_inj e
  obtain ⟨htag, e⟩ := sized_append_inj r.tag.property hi.tag e
  obtain ⟨hblob, e⟩ := sized_append_inj r.blob.property hi.blob e
  obtain ⟨hfields, e⟩ := sized_append_inj r.fields.property hi.fields e
  exact ⟨⟨hobject, htag, hblob, hfields⟩, e⟩

theorem flatMap_bytes_of_spells {records : List RawRecord} {items : List Item}
    (hs : List.Forall₂ RawRecord.Spells records items) :
    records.flatMap RawRecord.bytes = items.flatMap Item.bytes := by
  induction hs with
  | nil => rfl
  | cons hs _ ih => rw [List.flatMap_cons, List.flatMap_cons, hs.bytes_eq, ih]

/-- Items that begin where records do begin with these records. -/
theorem split_of_append {records : List RawRecord} {items : List Item}
    (hf : ∀ i ∈ items, i.Fits) (hl : records.length ≤ items.length)
    (e : records.flatMap RawRecord.bytes ++ rest = items.flatMap Item.bytes ++ rest') :
    ∃ front back, items = front ++ back ∧ List.Forall₂ RawRecord.Spells records front ∧
      rest = back.flatMap Item.bytes ++ rest' := by
  induction records generalizing items with
  | nil => exact ⟨[], items, rfl, .nil, e⟩
  | cons r records ih =>
      cases items with
      | nil => cases hl
      | cons i items =>
          simp only [List.flatMap_cons, List.append_assoc] at e
          obtain ⟨hi, hf⟩ := List.forall_mem_cons.mp hf
          obtain ⟨hs, e⟩ := RawRecord.spells_of_append hi e
          obtain ⟨front, back, rfl, hfront, hrest⟩ := ih hf (Nat.le_of_succ_le_succ hl) e
          exact ⟨i :: front, back, rfl, .cons hs hfront, hrest⟩

/-- Bytes that start with a raw header and with the spelling of one start with the same. -/
theorem RawHeader.spells_of_append {raw : RawHeader}
    (hp : (Text.encode h.origin.producer).length < UInt32.size)
    (e : raw.bytes ++ rest = spellHeader h ++ rest') :
    raw.bytes = spellHeader h ∧ raw.count = h.count ∧ rest = rest' := by
  have hparts := e
  simp only [RawHeader.bytes, spellHeader, List.append_assoc] at hparts
  obtain ⟨-, hparts⟩ := List.append_inj hparts raw.magic.property
  obtain ⟨-, hparts⟩ := List.append_inj hparts rfl
  obtain ⟨-, hparts⟩ := sized_append_inj raw.producer.property hp hparts
  obtain ⟨-, hparts⟩ := List.append_inj hparts (by simp)
  obtain ⟨-, hparts⟩ := List.append_inj hparts (by simp)
  obtain ⟨-, hparts⟩ := ofU64_append_inj hparts
  obtain ⟨hcount, rfl⟩ := ofU64_append_inj hparts
  exact ⟨List.append_cancel_right e, hcount, rfl⟩

theorem Wellformed.perm {items items' : List Item} (hw : Wellformed h items)
    (hp : items'.Perm items) : Wellformed h items' :=
  ⟨hw.producer, hp.length_eq.trans hw.count, fun i hi => hw.fits i (hp.mem_iff.mp hi),
    fun i hi => hw.below i (hp.mem_iff.mp hi)⟩

/-- **Rearranged records are read as rearranged objects**, or not at all if they are not otherwise.
Whether a record decodes, and to what, is its own business, and whether identities are distinct does
not depend on their order. -/
theorem read_rearranged {α : Type} {decoders : Decoders α} {x y : RawStream} (hxy : x.Rearranges y)
    {st : Staging α} (hr : read decoders x.bytes = .ok (h, st) rest) :
    ∃ st', read decoders y.bytes = .ok (h, st') rest ∧
      st'.slots.entries.Perm st.slots.entries := by
  obtain ⟨items, hw, hd, e⟩ := read_eq_ok.mp hr
  simp only [RawStream.bytes, spell, List.append_assoc] at e
  obtain ⟨hheader, hcount, e⟩ := RawHeader.spells_of_append hw.producer e
  have hl : x.records.length ≤ items.length := by
    rw [hw.count, ← hcount]
    exact x.counted
  obtain ⟨front, back, rfl, hfront, htail⟩ := split_of_append hw.fits hl e
  -- the items of the records move with them, those in the rest stay
  obtain ⟨front', hfront', hperm⟩ := List.perm_comp_forall₂ hxy.records hfront
  have hitems : (front' ++ back).Perm (front ++ back) := hperm.append_right back
  obtain ⟨entries, hd', hentries⟩ := List.perm_comp_forall₂ hitems hd
  have hn : (entries.map Prod.fst).Nodup := (hentries.map Prod.fst).nodup_iff.mpr st.slots.nodup
  refine ⟨⟨⟨entries, hn⟩⟩, read_eq_ok.mpr ⟨front' ++ back, hw.perm hitems, hd', ?_⟩, hentries⟩
  simp only [RawStream.bytes, spell, hxy.header, hxy.tail, hheader, htail,
    flatMap_bytes_of_spells hfront', List.flatMap_append, List.append_assoc]

end Reading

/-! ### Streams that were written -/

/-- An item that fits is a record. -/
def Item.raw (i : Item) (hi : i.Fits) : RawRecord :=
  ⟨i.object.val, ⟨Text.encode i.tag, hi.tag⟩, ⟨i.record.blob, hi.blob⟩,
    ⟨i.record.fields, hi.fields⟩⟩

/-- The stream of a header and items, cut. -/
def Framed.raw {h : Header} {items : List Item} (hw : Framed h items) : RawStream where
  header := ⟨⟨magic, rfl⟩, version, ⟨Text.encode h.origin.producer, hw.producer⟩, h.origin.rank,
    h.origin.world, h.cursor, h.count⟩
  records := items.pmap Item.raw hw.fits
  tail := endMarker ++ Bytes.ofU64 h.count
  counted := by rw [List.length_pmap]; exact Nat.le_of_eq hw.count

theorem Framed.length_raw {h : Header} {items : List Item} (hw : Framed h items) :
    hw.raw.records.length = items.length :=
  List.length_pmap

theorem Framed.raw_bytes {h : Header} {items : List Item} (hw : Framed h items) :
    hw.raw.bytes = spell h items := by
  have hrecords : ∀ (items : List Item) (hf : ∀ i ∈ items, i.Fits),
      (items.pmap Item.raw hf).flatMap RawRecord.bytes = items.flatMap Item.bytes := by
    intro items hf
    induction items with
    | nil => rfl
    | cons i items ih =>
        rw [List.pmap_cons, List.flatMap_cons, List.flatMap_cons, ih]
        rfl
  rw [RawStream.bytes, spell, ← hrecords items hw.fits]
  rfl

end Stream

/-! ### What is made of them -/

/-- The same simulation with its registry in another order and its lists in other places. -/
structure Simulation.Reordered (s s' : Simulation) : Prop where
  entries : s'.registry.entries.entries.Perm s.registry.entries.entries
  cursor : s'.registry.cursor = s.registry.cursor
  rest : ∃ place, s' = { s.moved place with registry := s'.registry }

namespace Staging

variable {st st' : Staging Staged} {s : Simulation}

theorem object?_of_perm {α : Type} {st st' : Staging α}
    (hp : st'.slots.entries.Perm st.slots.entries) (id : ObjectId) :
    st'.object? id = st.object? id := by
  refine Option.ext fun a => ?_
  simp only [object?_eq_some, hp.mem_iff]

/-- What a table holds does not depend on its order, nor on the registry and the places of the
lists. -/
theorem Holds.reordered (h : st.Holds s) (hp : st'.slots.entries.Perm st.slots.entries)
    (registry : Registry) (place : Family → ListInstance) :
    st'.Holds { s.moved place with registry } := by
  refine ⟨fun e he => (object?_of_perm hp e.1).trans (h.parts e he),
    (hp.map Prod.fst).trans h.ids, fun F => (h.chained F).akin ?_⟩
  have hmembers : (({ s.moved place with registry } : Simulation).list F).members =
      (s.list F).members := by
    cases F <;> rfl
  rw [hmembers]
  exact List.forall₂_same.mpr fun _ _ => ⟨rfl, rfl, rfl, rfl⟩

end Staging

namespace Host

variable {σ τ : Type} {p q : Host} {x y : Stream.RawStream} {behaviors : Behaviors}

/-- The process when the control layer is called back within a restore. -/
def assembled (p : Host) : Host :=
  { (p.setPhase .restore).voted.voted with supply := ⟨p.supply.next + 3⟩ }

/-- A restore of the same records in another order, perhaps by another process of the same rank. -/
theorem exists_restore_rearranged (hcomm : q.services.comm = p.services.comm)
    (hphase : q.services.phase = p.services.phase)
    (hpeers : ∀ round, p.services.comm.answer round true = .ok true) (hxy : x.Rearranges y)
    {unpickle : Bytes → ControlM σ τ} {layer layer' : σ}
    (hcontrol : ∀ control, (∃ a state, unpickle control (p.assembled, layer) = .ok a state) →
      ∃ a state, unpickle control (q.assembled, layer') = .ok a state)
    {s : Simulation} {a : τ} (h : (p.restore (.ok x.bytes) behaviors unpickle layer).result =
      .ok (s, a)) :
    ∃ s' a', (q.restore (.ok y.bytes) behaviors unpickle layer').result = .ok (s', a') ∧
      s.Reordered s' := by
  obtain ⟨hidle, _, header, st, supply, ⟨⟩, hd, -, hc, -, state, hu⟩ := restore_eq_ok.mp h
  obtain ⟨⟨rest, hr⟩, hrank, hworld⟩ := decodeStream_eq_ok.mp hd
  obtain ⟨hholds, hregistry, hbehaviors, -, -, -, rfl⟩ :=
    (connectStream_eq_ok (Stream.decoded_of_read hr).fresh).mp hc
  obtain ⟨st', hr', hp⟩ := Stream.read_rearranged hxy hr
  -- the simulation that the rearranged table holds, in the places that its lists will get
  let s' : Simulation :=
    { s.moved q.supply.place with registry := st'.registry header.cursor }
  have hc' : connectStream behaviors header st' q.supply = .ok (s', ⟨q.supply.next + 3⟩) :=
    (connectStream_eq_ok (Stream.decoded_of_read hr').fresh).mpr
      ⟨hholds.reordered hp _ _, rfl, hbehaviors, rfl, rfl, rfl, rfl⟩
  obtain ⟨a', state', hu'⟩ := hcontrol s.control ⟨a, state, hu⟩
  refine ⟨s', a', restore_eq_ok.mpr ⟨hphase.trans hidle, _, header, st', _, rfl,
    decodeStream_eq_ok.mpr ⟨⟨rest, hr'⟩, ?_, ?_⟩, ?_, hc', ?_, state', hu'⟩, ?_, ?_, _, rfl⟩
  · rw [hcomm, hrank]
  · rw [hcomm, hworld]
  · rw [hcomm, hpeers]
  · rw [hcomm, hpeers]
  · rw [hregistry]
    exact hp.map _
  · rw [hregistry]
    rfl

/-- **The order of records does not matter.**  Two streams that differ in the order of their records
only, whatever these are, are restored both or neither, if the control layer takes the same states
both times.  The simulations are the same, up to the order of their registries and the places of
their lists. -/
theorem restore_rearranged (hcomm : q.services.comm = p.services.comm)
    (hphase : q.services.phase = p.services.phase)
    (hpeers : ∀ round, p.services.comm.answer round true = .ok true) (hxy : x.Rearranges y)
    {unpickle : Bytes → ControlM σ τ} {layer layer' : σ}
    (hcontrol : ∀ control, (∃ a state, unpickle control (p.assembled, layer) = .ok a state) ↔
      ∃ a state, unpickle control (q.assembled, layer') = .ok a state) :
    ((∃ s a, (p.restore (.ok x.bytes) behaviors unpickle layer).result = .ok (s, a)) ↔
      ∃ s a, (q.restore (.ok y.bytes) behaviors unpickle layer').result = .ok (s, a)) ∧
    ∀ s a s' a', (p.restore (.ok x.bytes) behaviors unpickle layer).result = .ok (s, a) →
      (q.restore (.ok y.bytes) behaviors unpickle layer').result = .ok (s', a') →
      s.Reordered s' := by
  refine ⟨⟨?_, ?_⟩, ?_⟩
  · rintro ⟨s, a, h⟩
    obtain ⟨s', a', h', -⟩ := exists_restore_rearranged hcomm hphase hpeers hxy
      (fun control => (hcontrol control).mp) h
    exact ⟨s', a', h'⟩
  · rintro ⟨s, a, h⟩
    obtain ⟨s', a', h', -⟩ := exists_restore_rearranged hcomm.symm hphase.symm
      (hcomm ▸ hpeers) hxy.symm (fun control => (hcontrol control).mpr) h
    exact ⟨s', a', h'⟩
  · intro s a s' a' h h'
    obtain ⟨s₁, a₁, h₁, hs⟩ := exists_restore_rearranged hcomm hphase hpeers hxy
      (fun control => (hcontrol control).mp) h
    rw [h', Except.ok.injEq, Prod.mk.injEq] at h₁
    exact h₁.1 ▸ hs

/-- The stream of a simulation with members in every list is restored from back to front, by a
process that has made other lists before. -/
theorem restore_rearranged_populated :
    ∃ x : Stream.RawStream, x.bytes = (Stream.write ⟨"plasma-engine 0.1.9", 0, 1⟩
        Simulation.populated.registry Simulation.populated.store).bytes ∧
      x.records.length = 8 ∧
      ∃ s a, (restore ⟨⟨{}, .alone, .idle, 1⟩, .empty, ⟨9⟩⟩ (.ok x.reverse.bytes)
        Simulation.populated.behaviors (fun control state => .ok control state) ()).result =
          .ok (s, a) ∧
        ∀ F, (s.list F).members = (Simulation.populated.list F).members := by
  have hs := Simulation.reached_populated.sound
  have hw : Stream.write ⟨"plasma-engine 0.1.9", 0, 1⟩ Simulation.populated.registry
      Simulation.populated.store = .put _ :=
    Emission.eq_put_iff.mpr ⟨by decide +kernel, rfl⟩
  obtain ⟨parts, hp⟩ := hs.exists_ordered
  obtain ⟨hproducer, hparts, hbytes⟩ := (hs.write_eq_put hp).mp hw
  have hframed := (hs.wellformed hp hparts hproducer).framed
  have hraw : hframed.raw.bytes = _ := hframed.raw_bytes.trans hbytes.symm
  obtain ⟨a, h⟩ := restore_bound (p := ⟨⟨{}, .alone, .idle, 1⟩, .empty, ⟨3⟩⟩) hs
    Simulation.reached_populated.furnished hw rfl rfl rfl (fun _ => rfl) []
    (fun control state => ⟨control, state, rfl⟩)
  rw [List.append_nil, ← hraw] at h
  have hrearranged := @restore_rearranged Unit Bytes ⟨⟨{}, .alone, .idle, 1⟩, .empty, ⟨3⟩⟩
    ⟨⟨{}, .alone, .idle, 1⟩, .empty, ⟨9⟩⟩ hframed.raw hframed.raw.reverse
    Simulation.populated.behaviors rfl rfl (fun _ => rfl) hframed.raw.rearranges_reverse
    (fun control state => .ok control state) () ()
    (fun control => ⟨fun _ => ⟨control, _, rfl⟩, fun _ => ⟨control, _, rfl⟩⟩)
  obtain ⟨s, a', h'⟩ := hrearranged.1.mp ⟨_, a, h⟩
  obtain ⟨place, hrest⟩ := (hrearranged.2 _ _ _ _ h h').rest
  refine ⟨hframed.raw, hraw, ?_, s, a', h', fun F => ?_⟩
  · rw [hframed.length_raw, List.length_map, hp.perm.length_eq]
    decide +kernel
  · rw [hrest]
    cases F <;> rfl

end Host

end ParticleSim
