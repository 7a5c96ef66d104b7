import ParticleSim.Ids
import ParticleSim.OrderedMap

/-!
# Checkpoint — The registry

Which objects a checkpoint has to write, each under the type tag that tells a reader what it is, in
the order of their registration.  The cursor is the next identity; as long as it grows, an identity
is never handed out again, not even after its object is gone.
-/

namespace ParticleSim

/-- Registered objects and the next identity. -/
structure Registry where
  entries : OrderedMap ObjectId String
  cursor : UInt64

namespace Registry

def empty : Registry := ⟨.empty, 0⟩

instance : Inhabited Registry := ⟨empty⟩

/-- The registry of given entries that goes on at `cursor`. -/
def ofList (entries : List (ObjectId × String)) (cursor : UInt64) : Registry :=
  ⟨.ofList entries, cursor⟩

/-- The registered objects in order. -/
def ids (r : Registry) : List ObjectId := r.entries.keys

/-- The identity that the next object will have. -/
def nextId (r : Registry) : ObjectId := ⟨r.cursor⟩

/-- Register an object under `nextId`. -/
def register (r : Registry) (tag : String) : Registry :=
  ⟨r.entries.insert r.nextId tag, r.cursor + 1⟩

def contains (r : Registry) (id : ObjectId) : Bool := r.entries.contains id

/-- Forget an object; the others keep their order. -/
def forget (r : Registry) (id : ObjectId) : Registry := { r with entries := r.entries.erase id }

/-- Forget an object, and say whether it was registered. -/
def unregister (r : Registry) (id : ObjectId) : Bool × Registry := (r.contains id, r.forget id)

/-- The tag an object is registered under. -/
def tag? (r : Registry) (id : ObjectId) : Option String := r.entries.find? id

theorem contains_iff {r : Registry} {id : ObjectId} : r.contains id = true ↔ id ∈ r.ids :=
  OrderedMap.contains_iff

def size (r : Registry) : Nat := r.entries.size

def isEmpty (r : Registry) : Bool := r.entries.isEmpty

theorem nodup_ids (r : Registry) : r.ids.Nodup := r.entries.nodup

/-- A new object is the last one, unless its identity is taken. -/
theorem ids_register (r : Registry) (tag : String) :
    (r.register tag).ids = if r.nextId ∈ r.ids then r.ids else r.ids ++ [r.nextId] :=
  OrderedMap.keys_insert r.entries r.nextId tag

theorem ids_forget (r : Registry) (id : ObjectId) : (r.forget id).ids = r.ids.filter (· ≠ id) :=
  OrderedMap.keys_erase r.entries id

/-- The registered objects that `owned` does not know, in order. -/
def orphans (r : Registry) (owned : ObjectId → Bool) : List ObjectId :=
  r.ids.filter fun id => !owned id

end Registry

end ParticleSim
