import ParticleSim.Component.Behavior
import ParticleSim.Registry

/-!
# Components — One component

A component is created unlinked and registered.  A list that takes it in gives it an id and a link
to the component that joined before it (`Component.attach`).
-/

namespace ParticleSim

/-- Where a component stands in its list. -/
inductive Link where
  /-- It was the first to join. -/
  | last
  /-- `object` joined just before it. -/
  | next (object : ObjectId)
deriving DecidableEq

/-- A behavior with the name it was found under. -/
structure BoundBehavior (F : Family) where
  symbol : String
  run : F.Behavior

/-- A component of family `F`. -/
structure Component (F : Family) where
  object : ObjectId
  name : String
  /-- Absent while the component is in no list, like its link. -/
  id : Option ComponentId
  kind : F.Kind
  params : F.Params
  behavior : Option (BoundBehavior F)
  link : Option Link

/-- Look a behavior up, if one is named; the error is a name without a function. -/
def Behaviors.bind (b : Behaviors) (F : Family) :
    Option String → Except String (Option (BoundBehavior F))
  | .none => .ok .none
  | some symbol =>
    match (b.table F).find? symbol with
    | some f => .ok (some ⟨symbol, f⟩)
    | .none => .error symbol

namespace Component

variable {F : Family}

/-- A component that is in no list. -/
def unlinked (object : ObjectId) (name : String) (kind : F.Kind) (params : F.Params)
    (behavior : Option (BoundBehavior F)) : Component F :=
  ⟨object, name, none, kind, params, behavior, none⟩

/-- Create and register a component.  A behavior that has no function registers nothing. -/
def create (registry : Registry) (behaviors : Behaviors) (name : String) (kind : F.Kind)
    (params : F.Params) (symbol : Option String) :
    Except ComponentError (Component F × Registry) :=
  match behaviors.bind F symbol with
  | .error symbol => .error (.unknownBehavior F symbol)
  | .ok behavior =>
    .ok (unlinked registry.nextId name kind params behavior, registry.register F.tag)

/-- Join a list. -/
def attach (c : Component F) (id : ComponentId) (link : Link) : Component F :=
  { c with id := some id, link := some link }

/-- Give an emitter a buffer of `n` zeros; it gets one only once. -/
def size (c : Component .emitter) (n : Nat) : Except ComponentError (Component .emitter) :=
  let params : EmitterParams := c.params
  match params.voxels with
  | some _ => .error (.alreadySized c.name)
  | none => .ok { c with params := { params with voxels := some (Array.replicate n 0) } }

end Component

end ParticleSim
