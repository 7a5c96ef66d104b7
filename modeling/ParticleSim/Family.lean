import ParticleSim.Ids

/-!
# Components — Families

A component is a boundary condition, a collision operator or an emitter.  What differs between the
three is here: the names under which they are registered, the kinds they come in with their stream
codes, and the built-in boundary conditions that answer to a reserved id without being in a list.
-/

namespace ParticleSim

/-- What a component does. -/
inductive Family where
  /-- Decides what becomes of a particle that reaches a boundary. -/
  | boundary
  /-- Acts on the species once a step. -/
  | collision
  /-- Emits particles once a step, after the collisions. -/
  | emitter
deriving DecidableEq

namespace Family

/-- Every family, in the order in which a simulation owns them. -/
def all : List Family := [.boundary, .collision, .emitter]

/-- The name used in messages. -/
def label : Family → String
  | boundary => "particle boundary condition"
  | collision => "collision operator"
  | emitter => "emitter"

/-- The type tag of a registered component. -/
def tag : Family → String
  | boundary => "particle_bc"
  | collision => "collision_op"
  | emitter => "emitter"

/-- The type tag of the registered list. -/
def listTag : Family → String
  | boundary => "particle_bc_list"
  | collision => "collision_op_list"
  | emitter => "emitter_list"

end Family

/-- Boundary conditions. -/
inductive BoundaryKind where
  | unknown
  | reflect
  | absorb
  /-- Absorb and reinject with thermal speeds. -/
  | maxwellianReflux
  /-- Absorb and count for each species. -/
  | absorbTally
deriving DecidableEq

/-- Collision operators. -/
inductive CollisionKind where
  | unknown
  | langevin
  | takizukeAbe
  | user
deriving DecidableEq

/-- Emitters. -/
inductive EmitterKind where
  | unknown
  /-- Space-charge-limited emission. -/
  | childLangmuir
  | user
deriving DecidableEq

namespace Family

/-- The kinds of a family. -/
abbrev Kind : Family → Type
  | boundary => BoundaryKind
  | collision => CollisionKind
  | emitter => EmitterKind

instance : (F : Family) → DecidableEq F.Kind
  | boundary => inferInstanceAs (DecidableEq BoundaryKind)
  | collision => inferInstanceAs (DecidableEq CollisionKind)
  | emitter => inferInstanceAs (DecidableEq EmitterKind)

/-- The kinds in the order of their stream codes. -/
def kinds : (F : Family) → List F.Kind
  | boundary => [.unknown, .reflect, .absorb, .maxwellianReflux, .absorbTally]
  | collision => [.unknown, .langevin, .takizukeAbe, .user]
  | emitter => [.unknown, .childLangmuir, .user]

/-- A component that does not say what it is. -/
def unknownKind : (F : Family) → F.Kind
  | boundary => .unknown
  | collision => .unknown
  | emitter => .unknown

/-- The code that stands for a kind in a stream: its place among the kinds. -/
def code (F : Family) (kind : F.Kind) : UInt32 := .ofNat (F.kinds.idxOf kind)

/-- The kind with a code. -/
def kindOf? (F : Family) (code : UInt32) : Option F.Kind := F.kinds[code.toNat]?

def kindLabel : (F : Family) → F.Kind → String
  | boundary, .unknown => "unknown"
  | boundary, .reflect => "reflect particles"
  | boundary, .absorb => "absorb particles"
  | boundary, .maxwellianReflux => "maxwellian reflux"
  | boundary, .absorbTally => "absorb tally"
  | collision, .unknown => "unknown"
  | collision, .langevin => "langevin"
  | collision, .takizukeAbe => "takizuke-abe"
  | collision, .user => "user"
  | emitter, .unknown => "unknown"
  | emitter, .childLangmuir => "child-langmuir"
  | emitter, .user => "user"

end Family

/-- A variant that answers to a reserved id and a fixed name without being in a list. -/
structure Builtin (F : Family) where
  name : String
  id : ComponentId
  kind : F.Kind

/-- The reserved id of reflection. -/
def reflectId : ComponentId := ⟨-1⟩

/-- The reserved id of absorption. -/
def absorbId : ComponentId := ⟨-2⟩

namespace Family

/-- The built-in variants; only boundary conditions have any. -/
def builtins : (F : Family) → List (Builtin F)
  | boundary => [⟨"reflect particles", reflectId, .reflect⟩, ⟨"absorb particles", absorbId, .absorb⟩]
  | collision => []
  | emitter => []

def builtinById? (F : Family) (id : ComponentId) : Option (Builtin F) :=
  F.builtins.find? (·.id = id)

def builtinByName? (F : Family) (name : String) : Option (Builtin F) :=
  F.builtins.find? (·.name = name)

/-- The id of a component of `kind` that joins `count` others.  A boundary condition of a built-in
kind takes the reserved id; the others count down from `-3`.  Collision operators and emitters count
up from `0`. -/
def nextId : (F : Family) → F.Kind → (count : Nat) → ComponentId
  | boundary, .reflect, _ => reflectId
  | boundary, .absorb, _ => absorbId
  | boundary, _, count => ⟨-3 - .ofNat count⟩
  | collision, _, count => ⟨.ofNat count⟩
  | emitter, _, count => ⟨.ofNat count⟩

end Family

end ParticleSim
