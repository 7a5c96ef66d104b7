import ParticleSim.Registry
import ParticleSim.Proofs.OrderedMap
import Mathlib.Data.List.Nodup
import Mathlib.Data.List.Perm.Subperm

/-!
# Checkpoint — Registries over time

A new object goes to the end (`Registry.entries_register`), and who is forgotten leaves the others
in their order.  As long as the cursor does not wrap, everything that is registered lies below it,
whatever was registered and forgotten before (`Registry.Reached.lt_cursor`).  Then there are fewer
registered objects than words (`Registry.size_lt`).
-/

namespace ParticleSim

/-- There are at most `n` identities below `n`. -/
theorem length_le_of_nodup_ids {ids : List ObjectId} (h : ids.Nodup) {n : Nat}
    (hn : ∀ id ∈ ids, id.val.toNat < n) : ids.length ≤ n := by
  have hinj : Function.Injective fun id : ObjectId => id.val.toNat := by
    rintro ⟨v⟩ ⟨w⟩ hvw
    exact congrArg _ (UInt64.toNat_inj.mp hvw)
  have hsub : (ids.map fun id => id.val.toNat) ⊆ List.range n := by
    intro m hm
    obtain ⟨id, hid, rfl⟩ := List.mem_map.mp hm
    exact List.mem_range.mpr (hn id hid)
  have hle := ((h.map hinj).subperm hsub).length_le
  rwa [List.length_map, List.length_range] at hle

namespace Registry

variable {r : Registry}

/-- A new object goes to the end of the registry. -/
theorem entries_register (tag : String) (h : r.nextId ∉ r.ids) :
    (r.register tag).entries.entries = r.entries.entries ++ [(r.nextId, tag)] :=
  OrderedMap.entries_insert_of_not_mem tag h

/-- Forgetting what is not registered changes nothing. -/
theorem entries_forget_of_not_mem {id : ObjectId} (h : id ∉ r.ids) :
    (r.forget id).entries.entries = r.entries.entries := by
  refine List.filter_eq_self.mpr fun e he => ?_
  rw [decide_eq_true_eq]
  exact fun hid => h (hid ▸ List.mem_map_of_mem he)

/-- An object that is forgotten again leaves only the cursor changed. -/
theorem entries_forget_register (tag : String) (h : r.nextId ∉ r.ids) :
    ((r.register tag).forget r.nextId).entries.entries = r.entries.entries := by
  rw [← entries_forget_of_not_mem h]
  show (r.register tag).entries.entries.filter (fun e => decide (e.1 ≠ r.nextId)) =
    r.entries.entries.filter (fun e => decide (e.1 ≠ r.nextId))
  rw [entries_register tag h, List.filter_append]
  simp

/-- The registries that there can be: an empty one, and what becomes of it when objects are
registered and forgotten and the cursor does not wrap. -/
inductive Reached : Registry → Prop where
  | empty : Reached empty
  | register {r : Registry} (before : Reached r) (tag : String)
      (cursor : r.cursor < (r.register tag).cursor) : Reached (r.register tag)
  | forget {r : Registry} (before : Reached r) (id : ObjectId) : Reached (r.forget id)

/-- **What is registered lies below the cursor**, whatever happened before. -/
theorem Reached.lt_cursor (h : r.Reached) : ∀ id ∈ r.ids, id.val < r.cursor := by
  induction h with
  | empty => exact fun id hid => absurd hid List.not_mem_nil
  | @register r before tag cursor ih =>
      intro id hid
      rw [ids_register] at hid
      have hold : id ∈ r.ids → id.val < (r.register tag).cursor :=
        fun h => UInt64.lt_trans (ih id h) cursor
      split at hid
      · exact hold hid
      · rcases List.mem_append.mp hid with hid | hid
        · exact hold hid
        · rw [List.mem_singleton.mp hid]
          exact cursor
  | forget before id ih =>
      intro id' hid
      rw [ids_forget] at hid
      exact ih id' (List.mem_of_mem_filter hid)

/-- Objects below the cursor are fewer than there are words. -/
theorem size_lt (h : ∀ id ∈ r.ids, id.val < r.cursor) : r.size < UInt64.size := by
  have hle := length_le_of_nodup_ids r.nodup_ids fun id hid => UInt64.lt_iff_toNat_lt.mp (h id hid)
  rw [ids, OrderedMap.keys, List.length_map] at hle
  exact Nat.lt_of_le_of_lt hle r.cursor.toNat_lt

end Registry

end ParticleSim
