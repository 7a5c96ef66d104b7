import ParticleSim.Recipe

/-!
# Control layer — Views and handles

A control layer looks at a list through a `RosterView`, which keeps the names and handles of the
members and rebuilds them before a read whenever its stamp no longer matches the list.  It changes
the list only through recipes and teardowns.

A `Handle` names a member without holding the list.  It resolves while the list it was taken from
has not been torn down, and never in another list.
-/

namespace ParticleSim

/-- A member of a list at a version of that list. -/
structure Handle (F : Family) where
  place : ListInstance
  object : ObjectId
  version : ListVersion
deriving DecidableEq

namespace Handle

variable {F : Family}

def text (h : Handle F) : String := F.label ++ "(" ++ h.object.text ++ "@" ++ h.version.text ++ ")"

/-- A handle to an object of a list as it is now. -/
def ofList (l : Roster F) (object : ObjectId) : Handle F := ⟨l.place, object, l.version⟩

/-- The member that the handle names. -/
def resolve (h : Handle F) (l : Roster F) : Except LookupError (Component F) :=
  if l.place = h.place ∧ l.version = h.version then
    match l.get? h.object with
    | some c => .ok c
    | none => .error (.stale h.object)
  else .error (.stale h.object)

end Handle

/-- What tells one state of a list from another: lists only grow between teardowns. -/
structure Stamp where
  place : ListInstance
  count : Nat
  version : ListVersion
deriving DecidableEq

def Stamp.ofList {F : Family} (l : Roster F) : Stamp := ⟨l.place, l.count, l.version⟩

/-- A view of a list. -/
structure RosterView (F : Family) where
  /-- The names of the members in the order in which they joined. -/
  names : List String
  /-- The handles of the members, in the same order. -/
  handles : List (Handle F)
  /-- The state of the list that names and handles were taken from. -/
  stamp : Option Stamp
deriving DecidableEq

namespace RosterView

variable {F : Family}

/-- A view that has not looked at a list. -/
def empty : RosterView F := ⟨[], [], none⟩

instance : Inhabited (RosterView F) := ⟨empty⟩

/-- The view of a list as it is now. -/
def ofList (l : Roster F) : RosterView F :=
  ⟨l.names, l.members.map fun c => .ofList l c.object, some (.ofList l)⟩

/-- Whether the view is not of the list as it is now. -/
def stale (v : RosterView F) (l : Roster F) : Bool := v.stamp ≠ some (.ofList l)

/-- Look at the list again if the view is stale. -/
def refresh (v : RosterView F) (l : Roster F) : RosterView F := if v.stale l then .ofList l else v

/-! ### Reads of a fresh view -/

def size (v : RosterView F) : Nat := v.names.length

/-- The handle of the member that joined after `i` others. -/
def nth (v : RosterView F) (i : Nat) : Except LookupError (Handle F) :=
  match v.handles[i]? with
  | some h => .ok h
  | none => .error (.index i v.handles.length)

/-- The handle of the first member of a name. -/
def get (v : RosterView F) (name : String) : Except LookupError (Handle F) :=
  match (v.names.findIdx? (· = name)).bind (v.handles[·]?) with
  | some h => .ok h
  | none => .error (.key name)

def contains (v : RosterView F) (name : String) : Bool := v.names.contains name

/-- Names and handles together. -/
def pairs (v : RosterView F) : List (String × Handle F) := v.names.zip v.handles

/-- The handle of the member that joined last. -/
def head? (v : RosterView F) : Option (Handle F) := v.handles.getLast?

/-- The names between quotes and in brackets. -/
def render (v : RosterView F) : String :=
  "[" ++ ", ".intercalate (v.names.map fun name => s!"'{name}'") ++ "]"

/-! ### Changes -/

/-- Changes a simulation through a view of one of its lists. -/
abbrev ViewM (F : Family) := EStateM ComponentError (RosterView F × Simulation)

/-- Apply a recipe to the simulation. -/
def apply (r : Recipe F) : ViewM F ObjectId := fun (v, s) =>
  match r.build s with
  | .ok object s => .ok object (v, s)
  | .error e s => .error e (v, s)

/-- Bring the view up to date. -/
def sync : ViewM F Unit := modify fun (v, s) => (v.refresh (s.list F), s)

/-- Apply a recipe and return a handle to the new member. -/
def append (r : Recipe F) : ViewM F (Handle F) := do
  let object ← apply r
  sync
  return .ofList ((← MonadState.get).2.list F) object

/-- Apply recipes in order, up to the first that fails; the members built before stay. -/
def extend : List (Recipe F) → ViewM F Unit
  | [] => return
  | r :: rs => do
    discard (append r)
    extend rs

/-- Tear the list down and build it again from recipes, up to the first that fails. -/
def replaceAll (rs : List (Recipe F)) : ViewM F Unit := fun (v, s) =>
  match extend rs ({ v with stamp := none }, s.clearList F) with
  | .ok () (v, s) => .ok () (v.refresh (s.list F), s)
  | .error e (v, s) => .error e (v.refresh (s.list F), s)

end RosterView

end ParticleSim
