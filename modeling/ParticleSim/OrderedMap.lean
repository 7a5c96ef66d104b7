/-!
# Collections — Maps in insertion order

A finite map that remembers the order in which its keys were first inserted.  Registries, symbol
tables, tables of decoders and staged objects are all of this kind, because the order is the order
in which a stream is written and read.

* `insert` keeps the place of a key that is already present and puts a new key at the end
  (`keys_insert`).
* `erase` keeps the order of what remains (`keys_erase`).
* No key occurs twice (`OrderedMap.nodup`, a field).
-/

namespace ParticleSim

/-- Pairs in insertion order, at most one for each key. -/
structure OrderedMap (κ β : Type) where
  entries : List (κ × β)
  nodup : (entries.map Prod.fst).Nodup

namespace OrderedMap

variable {κ β γ : Type}

/-- The map without keys. -/
def empty : OrderedMap κ β := ⟨[], List.nodup_nil⟩

instance : Inhabited (OrderedMap κ β) := ⟨empty⟩

/-- The keys in insertion order. -/
def keys (m : OrderedMap κ β) : List κ := m.entries.map Prod.fst

def size (m : OrderedMap κ β) : Nat := m.entries.length

def isEmpty (m : OrderedMap κ β) : Bool := m.entries.isEmpty

/-- Change the value of every key, and no key. -/
def mapValues (m : OrderedMap κ β) (f : κ → β → γ) : OrderedMap κ γ where
  entries := m.entries.map fun e => (e.1, f e.1 e.2)
  nodup := by simpa [List.map_map, Function.comp_def] using m.nodup

@[simp] theorem keys_mapValues (m : OrderedMap κ β) (f : κ → β → γ) :
    (m.mapValues f).keys = m.keys := by
  simp [mapValues, keys]

variable [DecidableEq κ]

/-- The value of a key. -/
def find? (m : OrderedMap κ β) (k : κ) : Option β :=
  (m.entries.find? fun e => e.1 = k).map Prod.snd

def contains (m : OrderedMap κ β) (k : κ) : Bool := m.entries.any fun e => e.1 = k

/-- Change the value of one key, if it is present. -/
def modify (m : OrderedMap κ β) (k : κ) (f : β → β) : OrderedMap κ β :=
  m.mapValues fun k' v => if k' = k then f v else v

theorem nodup_append_new {m : OrderedMap κ β} {k : κ} (v : β) (h : ¬ m.contains k = true) :
    ((m.entries ++ [(k, v)]).map Prod.fst).Nodup := by
  rw [List.map_append, List.nodup_append]
  refine ⟨m.nodup, by simp, fun a ha b hb hab => h ?_⟩
  obtain ⟨e, he, rfl⟩ := List.mem_map.mp ha
  simp only [List.map_cons, List.map_nil, List.mem_singleton] at hb
  exact List.any_eq_true.mpr ⟨e, he, by simp [hab, hb]⟩

/-- Bind `k` to `v`: in the place `k` already has, else at the end. -/
def insert (m : OrderedMap κ β) (k : κ) (v : β) : OrderedMap κ β :=
  if h : m.contains k then m.modify k fun _ => v
  else ⟨m.entries ++ [(k, v)], nodup_append_new v h⟩

/-- Drop a key; the others keep their order. -/
def erase (m : OrderedMap κ β) (k : κ) : OrderedMap κ β where
  entries := m.entries.filter fun e => e.1 ≠ k
  nodup := m.nodup.sublist (List.filter_sublist.map Prod.fst)

theorem contains_iff {m : OrderedMap κ β} {k : κ} : m.contains k = true ↔ k ∈ m.keys := by
  simp [contains, keys]

theorem isSome_find? (m : OrderedMap κ β) (k : κ) : (m.find? k).isSome = m.contains k :=
  Bool.eq_iff_iff.mpr (by simp [find?, contains])

@[simp] theorem keys_modify (m : OrderedMap κ β) (k : κ) (f : β → β) :
    (m.modify k f).keys = m.keys :=
  keys_mapValues m _

/-- A new key goes to the end. -/
theorem keys_insert (m : OrderedMap κ β) (k : κ) (v : β) :
    (m.insert k v).keys = if k ∈ m.keys then m.keys else m.keys ++ [k] := by
  by_cases h : m.contains k = true
  · rw [if_pos (contains_iff.mp h), insert, dif_pos h, keys_modify]
  · rw [if_neg (fun hk => h (contains_iff.mpr hk)), insert, dif_neg h]
    simp [keys]

/-- The other keys stay in their order. -/
theorem keys_erase (m : OrderedMap κ β) (k : κ) : (m.erase k).keys = m.keys.filter (· ≠ k) := by
  simp [erase, keys, List.filter_map, Function.comp_def]

/-- Insert the pairs from left to right. -/
def ofList (pairs : List (κ × β)) : OrderedMap κ β :=
  pairs.foldl (fun m e => m.insert e.1 e.2) empty

end OrderedMap

end ParticleSim
