/-!
# Identity — Objects, components and lists

* `ObjectId` names a registered object; streams carry it verbatim, so it names the same object after
  a restart.
* `ComponentId` names a component within its list.
* `ListVersion` counts the teardowns of a list, modulo `2 ^ 64`.
* `ListInstance` tells one list of the process from every other; an `InstanceSupply` never hands out
  the same one twice (`InstanceSupply.lt_next_of_take`).
-/

namespace ParticleSim

/-- Identity of a registered object. -/
structure ObjectId where
  val : UInt64
deriving DecidableEq, Inhabited

/-- An object is written as its number after a hash sign. -/
def ObjectId.text (id : ObjectId) : String := "#" ++ id.val.toNat.repr

/-- Number of a component within its list; the negative ones belong to boundary conditions. -/
structure ComponentId where
  val : Int64
deriving DecidableEq, Inhabited

def ComponentId.text (id : ComponentId) : String := id.val.toInt.repr

/-- How often a list has been torn down. -/
structure ListVersion where
  val : UInt64
deriving DecidableEq, Inhabited

/-- The version after one more teardown; after `2 ^ 64` of them the count starts again. -/
def ListVersion.next (v : ListVersion) : ListVersion := ⟨v.val + 1⟩

def ListVersion.text (v : ListVersion) : String := "v" ++ v.val.toNat.repr

/-- Which list of the process this is.  Two simulations number their objects alike, so an `ObjectId`
does not tell their lists apart. -/
structure ListInstance where
  serial : Nat
deriving DecidableEq, Inhabited

/-- The list instances not handed out yet: `next` and everything above it. -/
structure InstanceSupply where
  next : Nat
deriving DecidableEq, Inhabited

/-- Hand out one instance. -/
def InstanceSupply.take (s : InstanceSupply) : ListInstance × InstanceSupply :=
  (⟨s.next⟩, ⟨s.next + 1⟩)

/-- What a supply hands out lies below everything it can hand out later. -/
theorem InstanceSupply.lt_next_of_take {s s' : InstanceSupply} {i : ListInstance}
    (h : s.take = (i, s')) : i.serial < s'.next := by
  cases h; exact Nat.lt_succ_self _

end ParticleSim
