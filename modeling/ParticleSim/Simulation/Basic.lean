import ParticleSim.Roster.Dynamics

/-!
# Simulation — What it owns and what changes it

A simulation owns a registry, its species and the three lists of components.  It registers itself
first: the control state, the simulation and the lists, in this order (`Simulation.new`).  A
component is created and joins its list in one operation, so no registered component is ever in no
list.

An operation that can fail is a `SimulationM`: it returns the simulation also when it fails, because
a component that was created and then refused has used up its identity.
-/

namespace ParticleSim

/-- The type tag of the control state. -/
def controlTag : String := "control_state"

/-- The type tag of a simulation. -/
def simulationTag : String := "simulation"

/-- A simulation. -/
structure Simulation where
  registry : Registry
  behaviors : Behaviors
  /-- The registered identity of the simulation itself. -/
  object : ObjectId
  /-- The registered identity of the control state. -/
  controlObject : ObjectId
  /-- What the control layer put into the last checkpoint; the simulation never looks into it. -/
  control : Bytes
  species : SpeciesList
  /-- The damping of the field array, once that is defined. -/
  field : Option Real32
  /-- How many steps are complete. -/
  step : UInt64
  boundaries : Roster .boundary
  collisions : Roster .collision
  emitters : Roster .emitter

/-- Changes a simulation, and may fail. -/
abbrev SimulationM := EStateM ComponentError Simulation

namespace Simulation

/-- The list of a family. -/
def list (s : Simulation) : (F : Family) → Roster F
  | .boundary => s.boundaries
  | .collision => s.collisions
  | .emitter => s.emitters

/-- Exchange the list of a family. -/
def setList (s : Simulation) : {F : Family} → Roster F → Simulation
  | .boundary, l => { s with boundaries := l }
  | .collision, l => { s with collisions := l }
  | .emitter, l => { s with emitters := l }

/-- A simulation without species and components. -/
def new (behaviors : Behaviors) (supply : InstanceSupply) : Simulation × InstanceSupply :=
  let control := Registry.empty
  let own := control.register controlTag
  let boundary := own.register simulationTag
  let collision := boundary.register Family.boundary.listTag
  let emitter := collision.register Family.collision.listTag
  let (place₁, supply) := supply.take
  let (place₂, supply) := supply.take
  let (place₃, supply) := supply.take
  ({ registry := emitter.register Family.emitter.listTag
     behaviors
     object := own.nextId
     controlObject := control.nextId
     control := []
     species := .empty
     field := none
     step := 0
     boundaries := .empty boundary.nextId place₁
     collisions := .empty collision.nextId place₂
     emitters := .empty emitter.nextId place₃ }, supply)

/-! ### Definitions -/

/-- Define a species; its index is returned. -/
def defineSpecies (name : String) (charge mass : Real32) : SimulationM Nat := do
  let s ← get
  match s.species.define name charge mass with
  | .error e => throw e
  | .ok species =>
    set { s with species }
    return s.species.size

/-- Define the field array; there is only one. -/
def defineField (damping : Real32) : SimulationM Unit := do
  let s ← get
  match s.field with
  | some _ => throw (.configuration .fieldDefined)
  | none => set { s with field := some damping }

/-- Take a registered component into its list.  One that is refused is forgotten. -/
def adopt {F : Family} (c : Component F) : SimulationM ObjectId := do
  let s ← get
  match (s.list F).append c with
  | .ok l =>
    set (s.setList l)
    return c.object
  | .error e =>
    set { s with registry := s.registry.forget c.object }
    throw e

/-- Create a component and register it. -/
def create (F : Family) (name : String) (kind : F.Kind) (params : F.Params)
    (symbol : Option String) : SimulationM (Component F) := do
  let s ← get
  match Component.create s.registry s.behaviors name kind params symbol with
  | .error e => throw e
  | .ok (c, registry) =>
    set { s with registry }
    return c

/-- Create a component that joins its list. -/
def define (F : Family) (name : String) (kind : F.Kind) (params : F.Params)
    (symbol : Option String) : SimulationM ObjectId := do
  adopt (← create F name kind params symbol)

/-- Create an emitter, with a buffer of `voxels` zeros if a number is given. -/
def defineEmitter (name : String) (kind : EmitterKind) (params : EmitterParams)
    (symbol : Option String) (voxels : Option Nat) : SimulationM ObjectId := do
  let c ← create .emitter name kind params symbol
  match voxels with
  | none => adopt c
  | some n =>
    match c.size n with
    | .ok c => adopt c
    | .error e =>
      modify fun s => { s with registry := s.registry.forget c.object }
      throw e

/-! ### Steps -/

/-- Decide a hit on the boundary condition with an id. -/
def interact (s : Simulation) (id : ComponentId) (hit : Hit) :
    Except LookupError (Disposition × Simulation) :=
  match s.boundaries.interact id hit s.species with
  | .error e => .error e
  | .ok (d, boundaries, species) => .ok (d, { s with boundaries, species })

/-- Run every behavior of a list once; boundary conditions wait for hits. -/
def applyList (s : Simulation) : Family → Simulation
  | .boundary => s
  | .collision =>
    let (collisions, species) := s.collisions.collide s.species
    { s with collisions, species }
  | .emitter =>
    let (emitters, species) := s.emitters.emit s.species
    { s with emitters, species }

/-- One step: the collision operators, then the emitters. -/
def advance (s : Simulation) : Simulation :=
  let s := (s.applyList .collision).applyList .emitter
  { s with step := s.step + 1 }

/-! ### Teardown -/

/-- Let every member of a list go, and forget them. -/
def clearList (s : Simulation) (F : Family) : Simulation :=
  let l := s.list F
  { s.setList l.clear with registry := l.forgetMembers s.registry }

/-- Let the members of every list go. -/
def reset (s : Simulation) : Simulation :=
  ((s.clearList .boundary).clearList .collision).clearList .emitter

end Simulation

end ParticleSim
