import ParticleSim.Simulation.Basic
import ParticleSim.Text.Quoted

/-!
# Components — Recipes

A `Recipe` builds one component and has it join its list, when it is applied and not before.  The
stock recipes make sure that no member has the name already, and check what they need before they
touch the simulation: a recipe that counts or reinjects needs species, and one that reinjects needs
both thermal speeds of every species.
-/

namespace ParticleSim

/-- How to build a component of family `F`; the identity of the new member is returned. -/
structure Recipe (F : Family) where
  name : String
  build : SimulationM ObjectId

namespace Recipe

/-- A recipe as it shows in a log. -/
def text {F : Family} (r : Recipe F) : String :=
  "Prototype \x7b family: " ++ Text.quoted F.label ++ ", name: " ++ Text.quoted r.name ++
    ", .. \x7d"

/-- Fail for a reason that only looks at the simulation. -/
def require {α : Type} (check : Simulation → Except ComponentError α) : SimulationM α := do
  MonadExcept.ofExcept (check (← get))

/-- No member of the list has the name. -/
def requireNew (F : Family) (name : String) : SimulationM Unit :=
  require fun s => (s.list F).requireNew name

/-- There is a species to act on. -/
def requireSpecies (name : String) : SimulationM Unit :=
  require fun s => if s.species.isEmpty then .error (.configuration (.noSpecies name)) else .ok ()

/-- The speeds of all species, in species order; `missing` says what is wrong without one. -/
def thermalSpeeds (speeds : OrderedMap String Real32) (missing : String → ConfigurationFault)
    (species : SpeciesList) : Except ComponentError (List Real32) :=
  species.names.mapM fun name =>
    match speeds.find? name with
    | some speed => .ok speed
    | none => .error (.configuration (missing name))

/-- A boundary condition that reflects. -/
def reflecting (name : String) : Recipe .boundary where
  name
  build := do
    requireNew .boundary name
    Simulation.define .boundary name .reflect .none none

/-- A boundary condition that absorbs. -/
def absorbing (name : String) : Recipe .boundary where
  name
  build := do
    requireNew .boundary name
    Simulation.define .boundary name .absorb .none none

/-- A boundary condition that absorbs and reinjects with thermal speeds by species name. -/
def refluxing (name : String) (parallel perpendicular : OrderedMap String Real32) :
    Recipe .boundary where
  name
  build := do
    requireSpecies name
    let parallel ← require fun s => thermalSpeeds parallel (.noParallelSpeed · name) s.species
    let perpendicular ← require fun s =>
      thermalSpeeds perpendicular (.noPerpendicularSpeed · name) s.species
    requireNew .boundary name
    Simulation.define .boundary name .maxwellianReflux (.reflux parallel perpendicular)
      "maxwellian_reflux"

/-- A boundary condition that absorbs and counts for each species. -/
def tallying (name : String) : Recipe .boundary where
  name
  build := do
    requireSpecies name
    requireNew .boundary name
    Simulation.define .boundary name .absorbTally
      (.tally (List.replicate (← get).species.size 0)) "absorb_tally"

/-- A collision operator with a named behavior. -/
def colliding (name : String) (kind : CollisionKind) (symbol : Option String) (params : Bytes) :
    Recipe .collision where
  name
  build := do
    requireNew .collision name
    Simulation.define .collision name kind params symbol

/-- An emitter with a named behavior, and `voxels` voxels if a number is given. -/
def emitting (name : String) (kind : EmitterKind) (symbol : Option String) (state : Bytes)
    (voxels : Option Nat) : Recipe .emitter where
  name
  build := do
    requireNew .emitter name
    Simulation.defineEmitter name kind (.ofState state) symbol voxels

/-- Apply recipes in order, up to the first that fails. -/
def applyAll {F : Family} : List (Recipe F) → SimulationM Unit
  | [] => return
  | r :: rs => do
    discard r.build
    applyAll rs

end Recipe

end ParticleSim
