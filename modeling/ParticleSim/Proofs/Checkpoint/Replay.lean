import ParticleSim.Proofs.Checkpoint.Streams
import ParticleSim.Proofs.Registry

/-!
# Checkpoint — What was written, read again

A reader replays data when it asks for a datum of the first kind, goes on with what it gets to the
next kind, and so on to the last (`RecordReader.Replays`); what it asks for may depend on what it
has got.  If a write reports success, decoders that replay what each object has written read the
stream back: every call returns the datum that was written, and nothing is left over
(`Stream.read_reported`).

No bound on the data is needed.  A length that does not fit its prefix is put out wrapped, but with
more bytes behind it than the section around it may have (`Record.fits_of_mem`); so the write fails.
-/

namespace ParticleSim

/-! ### Readers that replay -/

namespace RecordReader

variable {r r' : OpenRecord} {id : ObjectId} {α β : Type}

/-- A datum is read as its kind when it stands at the front of the record. -/
theorem datum_eq_ok {kind : DatumKind} {d : Datum} :
    datum kind r = .ok d r' ↔ d.kind = kind ∧ d.Fits ∧ r.Splits [d] r' := by
  cases kind <;> simp only [datum, map_eq_ok, u8_eq_ok, u32_eq_ok, u64_eq_ok, i64_eq_ok, f32_eq_ok,
    text_eq_ok, bytes_eq_ok, symbol_eq_ok, pointer_eq_ok, i32s_eq_ok] <;> cases d <;>
    simp [Datum.kind, Datum.Fits]

/-- For the object `id`, the reader makes the calls that match the data, one after the other, each
knowing what the ones before have returned, and then returns `a`.  It may look at the identity of
the object at any time. -/
inductive Replays (id : ObjectId) : RecordReader α → List Datum → α → Prop where
  | done (a : α) : Replays id (pure a) [] a
  | object {next : ObjectId → RecordReader α} {ds : List Datum} {a : α}
      (rest : Replays id (next id) ds a) : Replays id (object >>= next) ds a
  | call {d : Datum} {next : Datum → RecordReader α} {ds : List Datum} {a : α}
      (rest : Replays id (next d) ds a) : Replays id (datum d.kind >>= next) (d :: ds) a

/-- **A reader that replays data reads them** where they stand at the front of the record. -/
theorem Replays.eq_ok {m : RecordReader α} {ds : List Datum} {a : α} (h : Replays id m ds a)
    (hid : r.object = id) (hfits : ∀ d ∈ ds, d.Fits) (hs : r.Splits ds r') : m r = .ok a r' := by
  induction h generalizing r with
  | done a => exact pure_eq_ok.mpr ⟨rfl, OpenRecord.splits_nil.mp hs⟩
  | object _ ih =>
      subst hid
      exact ih rfl hfits hs
  | @call d next ds a _ ih =>
      obtain ⟨hfit, hfits⟩ := List.forall_mem_cons.mp hfits
      obtain ⟨r₁, hfirst, hrest⟩ := OpenRecord.splits_cons.mp hs
      rw [bind_of_ok (datum_eq_ok.mpr ⟨rfl, hfit, hfirst⟩)]
      exact ih (hfirst.object.symm.trans hid) hfits hrest

/-- Readers one after the other replay data one after the other. -/
theorem Replays.bind {m : RecordReader α} {next : α → RecordReader β} {ds ds' : List Datum} {a : α}
    {b : β} (h : Replays id m ds a) (h' : Replays id (next a) ds' b) :
    Replays id (m >>= next) (ds ++ ds') b := by
  induction h with
  | done a => rwa [pure_bind]
  | object _ ih =>
      rw [bind_assoc]
      exact .object (ih h')
  | call _ ih =>
      rw [bind_assoc]
      exact .call (ih h')

/-- Read data of the given kinds. -/
def data : List DatumKind → RecordReader (List Datum)
  | [] => return []
  | kind :: kinds => return (← datum kind) :: (← data kinds)

theorem data_replays (ds : List Datum) : Replays id (data (ds.map Datum.kind)) ds ds := by
  induction ds with
  | nil => exact .done []
  | cons d ds ih =>
      have hrest : Replays id (data (ds.map Datum.kind) >>= fun ds => pure (d :: ds)) (ds ++ [])
          (d :: ds) := ih.bind (.done (d :: ds))
      rw [List.append_nil] at hrest
      exact .call hrest

end RecordReader

namespace Stream

variable {α : Type}

/-- What a write answers: the number of records, unless it failed. -/
def report (registry : Registry) (e : Emission) : Except CheckpointError UInt64 :=
  match e.failure with
  | some failure => .error failure
  | none => .ok (.ofNat registry.size)

theorem report_eq_ok {registry : Registry} {e : Emission} {n : UInt64}
    (h : report registry e = .ok n) : e.failure = none ∧ n = .ofNat registry.size := by
  rw [report] at h
  split at h
  · cases h
  · next hf => exact ⟨hf, (Except.ok.inj h).symm⟩

/-- For each registered object there is a decoder that replays what the object writes. -/
def Replays (decoders : Decoders α) (objects : ObjectId → α) (registry : Registry)
    (store : Store) : Prop :=
  ∀ id tag data, (id, tag) ∈ registry.entries.entries → store id = some ⟨tag, .ok data⟩ →
    ∃ decode, decoders.find? tag = some decode ∧ RecordReader.Replays id decode data (objects id)

/-- The table of the objects that are registered. -/
def replayed (objects : ObjectId → α) (registry : Registry) : Staging α :=
  ⟨registry.entries.mapValues fun id tag => ⟨tag, some (objects id)⟩⟩

theorem registry_replayed {objects : ObjectId → α} {registry : Registry} :
    (replayed objects registry).registry registry.cursor = registry := by
  obtain ⟨entries, cursor⟩ := registry
  exact congrArg (Registry.mk · cursor) (OrderedMap.ext (by
    simp [replayed, OrderedMap.mapValues, Function.comp_def]))

theorem object?_replayed {objects : ObjectId → α} {registry : Registry} {id : ObjectId}
    (h : id ∈ registry.ids) : (replayed objects registry).object? id = some (objects id) := by
  obtain ⟨⟨id, tag⟩, he, rfl⟩ := List.mem_map.mp h
  rw [Staging.object?, replayed, OrderedMap.find?_mapValues, OrderedMap.find?_eq_some.mpr he]
  rfl

section Decoding

variable {decoders : Decoders α} {objects : ObjectId → α} {registry : Registry} {store : Store}

/-- An item that fits is decoded by a decoder that replays what its object has written. -/
theorem Item.Writes.decodes {e : ObjectId × String} {i : Item} (hw : i.Writes store e)
    (hr : Replays decoders objects registry store) (hf : i.Fits)
    (he : e ∈ registry.entries.entries) :
    i.Decodes decoders (e.1, ⟨e.2, some (objects e.1)⟩) := by
  obtain ⟨id, tag, record⟩ := i
  obtain ⟨rfl, rfl, data, hs, rfl⟩ := hw
  obtain ⟨decode, hdecode, hreplays⟩ := hr _ _ _ he hs
  have hread := hreplays.eq_ok rfl (fun d hd => Record.fits_of_mem hd hf.fields)
    (OpenRecord.splits_ofData e.1 data)
  exact ⟨_, decodeRecord_eq_ok.mpr ⟨decode, hdecode, _, hread, rfl, rfl⟩, rfl⟩

/-- The items of a write that succeeds are decoded to the slots of the table. -/
theorem decodes_replayed (hr : Replays decoders objects registry store) {items : List Item}
    (hwrites : List.Forall₂ (Item.Writes store) registry.entries.entries items)
    (hfits : ∀ i ∈ items, i.Fits) :
    List.Forall₂ (Item.Decodes decoders) items (replayed objects registry).slots.entries := by
  have hentries := (List.forall₂_and_left _ _).mpr ⟨fun _ he => he, hwrites⟩
  have hitems := (List.forall₂_and_left _ _).mpr ⟨hfits, List.Forall₂.flip hentries⟩
  exact List.forall₂_map_right_iff.mpr
    (hitems.imp fun _ _ ⟨hf, he, hw⟩ => hw.decodes hr hf he)

end Decoding

variable {origin : Origin} {registry : Registry} {store : Store} {capacity : Option Nat}
  {n : UInt64}

/-- **Whatever a write reports as written reads back**, for data of any length.  Every length in the
records is below `2 ^ 32`, so no prefix has wrapped; and decoders that replay what was written read
the same origin and cursor, and the same identities under the same tags in the same order. -/
theorem read_reported (below : ∀ id ∈ registry.ids, id.val < registry.cursor)
    (reported : report registry ((write origin registry store).within capacity) = .ok n) :
    n.toNat = registry.size ∧
    (∀ id tag, (id, tag) ∈ registry.entries.entries →
      ∃ data, store id = some ⟨tag, .ok data⟩ ∧ ∀ d ∈ data, d.Fits) ∧
    ∀ {α : Type} (decoders : Decoders α) (objects : ObjectId → α),
      Replays decoders objects registry store → ∀ rest,
        ∃ staged : Staging α,
          read decoders (((write origin registry store).within capacity).bytes ++ rest) =
            .ok (⟨origin, registry.cursor, n⟩, staged) rest ∧
          staged.registry registry.cursor = registry ∧
          ∀ id ∈ registry.ids, staged.object? id = some (objects id) := by
  obtain ⟨hok, rfl⟩ := report_eq_ok reported
  have hput := Emission.eq_put_iff.mpr ⟨hok, rfl⟩
  obtain ⟨hp, items, hwrites, hfits, hbytes⟩ := write_eq_put.mp (Emission.eq_put_of_within hput)
  have hsize : (UInt64.ofNat registry.size).toNat = registry.size :=
    UInt64.toNat_ofNat_of_lt' (Registry.size_lt below)
  refine ⟨hsize, ?_, ?_⟩
  · intro id tag he
    obtain ⟨i, hi, hw⟩ := exists_of_forall₂ hwrites.flip he
    obtain ⟨data, hs, hr⟩ := hw.data
    exact ⟨data, hs, fun d hd => Record.fits_of_mem hd (hr ▸ (hfits i hi).fields)⟩
  · intro α decoders objects hr rest
    refine ⟨replayed objects registry,
      read_eq_ok.mpr ⟨items, ⟨hp, ?_, hfits, ?_⟩, decodes_replayed hr hwrites hfits, ?_⟩,
      registry_replayed, fun id hid => object?_replayed hid⟩
    · exact hwrites.length_eq.symm.trans hsize.symm
    · intro i hi
      obtain ⟨e, he, hw⟩ := exists_of_forall₂ hwrites hi
      exact hw.object ▸ below e.1 (List.mem_map.mpr ⟨e, he, rfl⟩)
    · rw [hbytes]

/-- Two objects of one type that write different things, and one that refers to the first. -/
def sampleStore : Store := fun id =>
  match id.val with
  | 0 => some ⟨"node", .ok [.u8 7, .text "north", .i32s [1, -1]]⟩
  | 2 => some ⟨"edge", .ok [.pointer (some ⟨0⟩), .symbol none, .f32 ⟨0x3F800000⟩]⟩
  | 3 => some ⟨"node", .ok [.bytes [], .i64 (-5)]⟩
  | _ => none

/-- Their registry, where a fourth object has come and gone. -/
def sampleRegistry : Registry :=
  ((((Registry.empty.register "node").register "node").register "edge").forget ⟨1⟩).register "node"

/-- What the sample objects write. -/
def sampleData (id : ObjectId) : List Datum :=
  match sampleStore id with
  | some ⟨_, .ok data⟩ => data
  | _ => []

/-- A decoder that reads data of the kinds that the object of the record has written. -/
def sampleDecoder : RecordReader (List Datum) := do
  let id ← RecordReader.object
  RecordReader.data ((sampleData id).map Datum.kind)

theorem read_reported_sample :
    (∀ id ∈ sampleRegistry.ids, id.val < sampleRegistry.cursor) ∧
    report sampleRegistry
      ((write ⟨"sample", 0, 1⟩ sampleRegistry sampleStore).within (some 300)) = .ok 3 ∧
    ∃ staged,
      read (.ofList [("node", sampleDecoder), ("edge", sampleDecoder)])
        (((write ⟨"sample", 0, 1⟩ sampleRegistry sampleStore).within (some 300)).bytes ++ [9]) =
          .ok (⟨⟨"sample", 0, 1⟩, 4, 3⟩, staged) [9] ∧
      staged.object? ⟨3⟩ = some [.bytes [], .i64 (-5)] := by
  have below : ∀ id ∈ sampleRegistry.ids, id.val < sampleRegistry.cursor :=
    (((((Registry.Reached.empty.register _ (by decide)).register _ (by decide)).register _
      (by decide)).forget _).register _ (by decide)).lt_cursor
  have reported : report sampleRegistry
      ((write ⟨"sample", 0, 1⟩ sampleRegistry sampleStore).within (some 300)) = .ok 3 := by
    decide +kernel
  have replays : Replays (.ofList [("node", sampleDecoder), ("edge", sampleDecoder)]) sampleData
      sampleRegistry sampleStore := by
    intro id tag data he hs
    have hentries : sampleRegistry.entries.entries =
        [(⟨0⟩, "node"), (⟨2⟩, "edge"), (⟨3⟩, "node")] := by decide
    have hdata : sampleData id = data := by rw [sampleData, hs]
    refine ⟨sampleDecoder, ?_, ?_⟩
    · rw [hentries] at he
      simp only [List.mem_cons, Prod.mk.injEq, List.not_mem_nil, or_false] at he
      obtain ⟨-, rfl⟩ | ⟨-, rfl⟩ | ⟨-, rfl⟩ := he <;> rfl
    · rw [← hdata]
      exact .object (RecordReader.data_replays _)
  obtain ⟨-, -, hread⟩ := read_reported below reported
  obtain ⟨staged, hok, -, hobjects⟩ := hread _ _ replays [9]
  exact ⟨below, reported, staged, hok, hobjects ⟨3⟩ (by decide +kernel)⟩

end Stream

end ParticleSim
