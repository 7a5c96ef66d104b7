import ParticleSim.Proofs.Simulation.Inventory

/-!
# Simulation — What is written

A sound simulation writes its parts, each once and in the order of their registration
(`Simulation.Sound.write_eq_put`).  It fails only if one of them does not fit a stream
(`Staged.Writable`).
-/

namespace ParticleSim

/-! ### Parts as items -/

namespace Staged

/-- An object whose record fits a stream. -/
structure Writable (o : Staged) : Prop where
  countable : o.Countable
  blob : (Record.ofData o.data).blob.length < UInt32.size
  fields : (Record.ofData o.data).fields.length < UInt32.size

/-- The item that an object writes. -/
def item (e : ObjectId × Staged) : Stream.Item := ⟨e.1, e.2.tag, .ofData e.2.data⟩

theorem encode_tag_length (o : Staged) : (Text.encode o.tag).length < UInt32.size := by
  rcases o with ⟨F, c⟩ | ⟨F, l⟩ | state | r
  · cases F <;> simp only [tag] <;> decide
  · cases F <;> simp only [tag] <;> decide
  · simp only [tag]
    decide
  · simp only [tag]
    decide

theorem writable_iff {e : ObjectId × Staged} :
    e.2.Writable ↔ e.2.Countable ∧ (item e).Fits :=
  ⟨fun h => ⟨h.countable, e.2.encode_tag_length, h.blob, h.fields⟩,
    fun h => ⟨h.1, h.2.blob, h.2.fields⟩⟩

end Staged

/-! ### The whole simulation -/

namespace Simulation

variable {s : Simulation} {e : ObjectId × Staged} {parts : List (ObjectId × Staged)}

/-- The header that a simulation writes. -/
def header (s : Simulation) (origin : Origin) : Header :=
  ⟨origin, s.registry.cursor, .ofNat s.registry.size⟩

/-- The parts of a simulation in the order of their registration. -/
structure Ordered (s : Simulation) (parts : List (ObjectId × Staged)) : Prop where
  perm : parts.Perm s.parts
  entries : s.registry.entries.entries = parts.map fun e => (e.1, e.2.tag)

namespace Sound

/-- The parts can be put into the order of their registration. -/
theorem exists_ordered (h : s.Sound) : ∃ parts, s.Ordered parts := by
  have howns := h.owns
  rw [inventory_eq_map_parts] at howns
  obtain ⟨parts, hperm, hentries⟩ := exists_map_of_perm howns
  exact ⟨parts, hperm, hentries⟩

/-- The live object of a part is the part. -/
theorem store_of_mem (h : s.Sound) (he : e ∈ s.parts) : s.store e.1 = some e.2.live := by
  have hn := h.nodup_owned
  rw [owned_eq_map_parts] at hn
  have hf := (OrderedMap.find?_fst_eq_some hn).mpr he
  rw [store_eq]
  obtain ⟨e', hf', ho⟩ := Option.map_eq_some_iff.mp hf
  rw [hf', Option.map_some, ho]

/-- What a part writes under its tag. -/
theorem writes_iff (h : s.Sound) (he : e ∈ s.parts) (i : Stream.Item) :
    i.Writes s.store (e.1, e.2.tag) ↔ e.2.Countable ∧ i = Staged.item e := by
  have hstore := h.store_of_mem he
  constructor
  · rintro ⟨ho, ht, data, hd, hr⟩
    rw [hstore, Option.some.injEq] at hd
    obtain ⟨hc, rfl⟩ := Staged.live_data_eq_ok.mp (congrArg LiveObject.data hd)
    obtain ⟨object, tag, record⟩ := i
    simp only at ho ht hr
    subst ho ht hr
    exact ⟨hc, rfl⟩
  · rintro ⟨hc, rfl⟩
    refine ⟨rfl, rfl, e.2.data, ?_, rfl⟩
    rw [hstore, ← e.2.live_tag, ← Staged.live_data_eq_ok.mpr ⟨hc, rfl⟩]

/-- A registry below its cursor has fewer than `2 ^ 64` entries. -/
theorem size_lt (h : s.Sound) : s.registry.size < UInt64.size := by
  have hle := length_le_of_nodup_ids s.registry.nodup_ids
    fun id hid => UInt64.lt_iff_toNat_lt.mp (h.below id hid)
  rw [Registry.ids, OrderedMap.keys, List.length_map] at hle
  exact Nat.lt_of_le_of_lt hle s.registry.cursor.toNat_lt

/-- **A sound simulation is written** if all of its parts fit a stream, each as an item of its
own. -/
theorem write_eq_put (h : s.Sound) (hp : s.Ordered parts) {origin : Origin} {bytes : Bytes} :
    Stream.write origin s.registry s.store = .put bytes ↔
      (Text.encode origin.producer).length < UInt32.size ∧ (∀ e ∈ s.parts, e.2.Writable) ∧
        bytes = Stream.spell (s.header origin) (parts.map Staged.item) := by
  have hwrites : ∀ items, List.Forall₂ (Stream.Item.Writes s.store) s.registry.entries.entries items ↔
      (∀ e ∈ parts, e.2.Countable) ∧ items = parts.map Staged.item := by
    intro items
    rw [hp.entries, List.forall₂_map_left_iff]
    exact forall₂_iff_map fun e he i => h.writes_iff (hp.perm.mem_iff.mp he) i
  have hmem : (∀ e ∈ s.parts, e.2.Writable) ↔ ∀ e ∈ parts, e.2.Writable :=
    ⟨fun hw e he => hw e (hp.perm.mem_iff.mp he), fun hw e he => hw e (hp.perm.mem_iff.mpr he)⟩
  rw [Stream.write_eq_put, hmem]
  constructor
  · rintro ⟨hprod, items, hws, hf, rfl⟩
    obtain ⟨hc, rfl⟩ := (hwrites items).mp hws
    exact ⟨hprod, fun e he => Staged.writable_iff.mpr
      ⟨hc e he, hf _ (List.mem_map_of_mem he)⟩, rfl⟩
  · rintro ⟨hprod, hw, rfl⟩
    refine ⟨hprod, _, (hwrites _).mpr ⟨fun e he => (hw e he).countable, rfl⟩, ?_, rfl⟩
    intro i hi
    obtain ⟨e, he, rfl⟩ := List.mem_map.mp hi
    exact (Staged.writable_iff.mp (hw e he)).2

/-- What is written can be read back. -/
theorem wellformed (h : s.Sound) (hp : s.Ordered parts) (hw : ∀ e ∈ s.parts, e.2.Writable)
    {origin : Origin} (ho : (Text.encode origin.producer).length < UInt32.size) :
    Stream.Wellformed (s.header origin) (parts.map Staged.item) := by
  refine ⟨ho, ?_, ?_, ?_⟩
  · have hlen := congrArg List.length hp.entries
    rw [List.length_map] at hlen
    rw [List.length_map, ← hlen]
    exact (UInt64.toNat_ofNat_of_lt' h.size_lt).symm
  · intro i hi
    obtain ⟨e, he, rfl⟩ := List.mem_map.mp hi
    exact (Staged.writable_iff.mp (hw e (hp.perm.mem_iff.mp he))).2
  · intro i hi
    obtain ⟨e, he, rfl⟩ := List.mem_map.mp hi
    refine h.below e.1 (h.ids_perm.mem_iff.mpr ?_)
    rw [owned_eq_map_parts]
    exact List.mem_map_of_mem (hp.perm.mem_iff.mp he)

end Sound

end Simulation

end ParticleSim
