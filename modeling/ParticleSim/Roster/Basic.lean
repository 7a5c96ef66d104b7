import ParticleSim.Component.Basic

/-!
# Rosters — The components of one family

A `Roster` owns its members in the order in which they joined.  Their links run the other way, from
the head, which joined last, to the one that joined first; behaviors are applied in that order
(`Roster.native`).

Members leave only all together (`Roster.clear`), and every teardown changes the version.
-/

namespace ParticleSim

/-- A list of components. -/
structure Roster (F : Family) where
  /-- The registered identity of the list itself. -/
  object : ObjectId
  /-- Which list of the process this is. -/
  place : ListInstance
  /-- The members in the order in which they joined. -/
  members : List (Component F)
  version : ListVersion

/-- What is found by a name or an id. -/
inductive Lookup (F : Family) where
  | builtin (b : Builtin F)
  | member (c : Component F)

namespace Lookup

variable {F : Family}

def name : Lookup F → String
  | builtin b => b.name
  | member c => c.name

def id : Lookup F → Option ComponentId
  | builtin b => some b.id
  | member c => c.id

def kind : Lookup F → F.Kind
  | builtin b => b.kind
  | member c => c.kind

end Lookup

namespace Roster

variable {F : Family}

/-- A list without members. -/
def empty (object : ObjectId) (place : ListInstance) : Roster F := ⟨object, place, [], ⟨0⟩⟩

def size (l : Roster F) : Nat := l.members.length

def isEmpty (l : Roster F) : Bool := l.members.isEmpty

/-- The member that joined last. -/
def head? (l : Roster F) : Option (Component F) := l.members.getLast?

/-- The members from the head along the links. -/
def native (l : Roster F) : List (Component F) := l.members.reverse

def names (l : Roster F) : List String := l.members.map Component.name

/-- The member with a registered identity. -/
def get? (l : Roster F) (object : ObjectId) : Option (Component F) :=
  l.members.find? (·.object = object)

/-- Whether an object is a member. -/
def contains (l : Roster F) (object : ObjectId) : Bool := l.members.any (·.object = object)

/-- The member that joined after `i` others. -/
def at? (l : Roster F) (i : Nat) : Option (Component F) := l.members[i]?

/-- Change the parameters of a member. -/
def updateParams (l : Roster F) (object : ObjectId) (f : F.Params → F.Params) : Roster F :=
  { l with members :=
      l.members.map fun c => if c.object = object then { c with params := f c.params } else c }

/-- How many members there are, as the family counts them: a boundary list reads it off the id of
its head when that id is not a reserved one. -/
def count (l : Roster F) : Nat :=
  match F, l.head?.bind (·.id) with
  | .boundary, some id => if id.val ≤ -3 then (-id.val - 2).toUInt64.toNat else l.size
  | _, _ => l.size

/-- The link of the next component to join. -/
def nextLink (l : Roster F) : Link :=
  match l.head? with
  | some head => .next head.object
  | none => .last

/-- Take a component in, with the next id and a link to the head.  A component that is in a list
stays out. -/
def append (l : Roster F) (c : Component F) : Except ComponentError (Roster F) :=
  if c.link.isSome || l.contains c.object then .error (.alreadyLinked c.name)
  else
    .ok { l with members := l.members ++ [c.attach (F.nextId c.kind l.count) l.nextLink] }

/-- Refuse a name that a member carries. -/
def requireNew (l : Roster F) (name : String) : Except ComponentError Unit :=
  if l.members.any (·.name = name) then .error (.duplicateName name) else .ok ()

/-- Let every member go. -/
def clear (l : Roster F) : Roster F := { l with members := [], version := l.version.next }

/-- Forget the members of a list. -/
def forgetMembers (l : Roster F) (registry : Registry) : Registry :=
  l.native.foldl (fun r c => r.forget c.object) registry

/-- Find by name: the built-in variants, then the members from the head on. -/
def findByName? (l : Roster F) (name : String) : Option (Lookup F) :=
  match F.builtinByName? name with
  | some b => some (.builtin b)
  | none => (l.native.find? (·.name = name)).map .member

/-- The member with an id, from the head on. -/
def memberById? (l : Roster F) (id : ComponentId) : Option (Component F) :=
  l.native.find? (·.id = some id)

/-- Find by id: the built-in variants, then the members from the head on. -/
def findById? (l : Roster F) (id : ComponentId) : Option (Lookup F) :=
  match F.builtinById? id with
  | some b => some (.builtin b)
  | none => (l.memberById? id).map .member

end Roster

end ParticleSim
