import ParticleSim.Component.Params
import ParticleSim.OrderedMap

/-!
# Components — Behaviors

What a component does is a function on its parameters and on the species.  A function cannot be
written into a stream; its name can, so every behavior has a name in the table of its family and a
restore looks the name up again.

* `Hit` and `Disposition` are what goes into and comes out of a boundary condition.
* `Behaviors` holds the three tables; `Behaviors.builtin` knows `maxwellian_reflux` and
  `absorb_tally`.
-/

namespace ParticleSim

/-- A particle that reaches a boundary. -/
structure Hit where
  /-- The index of its species. -/
  species : Nat
  /-- The face of the voxel that it crosses. -/
  face : UInt8
deriving DecidableEq

/-- What becomes of a particle at a boundary. -/
inductive Disposition where
  | reflected
  | absorbed
  /-- The particle is gone and another takes its place. -/
  | reinjected
deriving DecidableEq

namespace Family

/-- Behaviors of a family.  An emitter may overwrite its voxels but not change how many there
are. -/
abbrev Behavior : Family → Type
  | boundary => BoundaryParams → Hit → SpeciesList → Disposition × BoundaryParams × SpeciesList
  | collision => Bytes → SpeciesList → Bytes × SpeciesList
  | emitter =>
    Bytes → (n : Nat) → Vector Int32 n → SpeciesList → Bytes × Vector Int32 n × SpeciesList

end Family

/-- The named behaviors of a family. -/
abbrev BehaviorTable (F : Family) := OrderedMap String F.Behavior

/-- The named behaviors of every family. -/
structure Behaviors where
  boundary : BehaviorTable .boundary
  collision : BehaviorTable .collision
  emitter : BehaviorTable .emitter

/-! ### Hits on a boundary -/

namespace Hit

/-- The particle stays. -/
def reflect (_ : Hit) (species : SpeciesList) : Disposition × SpeciesList := (.reflected, species)

/-- The particle is gone; a population stops at zero. -/
def absorb (hit : Hit) (species : SpeciesList) : Disposition × SpeciesList :=
  (.absorbed, species.updatePopulation hit.species fun n => if n = 0 then 0 else n - 1)

end Hit

/-- Reinject a particle of a species with known thermal speeds, and absorb any other. -/
def maxwellianReflux : Family.Behavior .boundary := fun params hit species =>
  let absorbed := hit.absorb species
  match params with
  | .reflux parallel _ =>
    if hit.species < parallel.length then (.reinjected, params, species)
    else (absorbed.1, params, absorbed.2)
  | _ => (absorbed.1, params, absorbed.2)

/-- Absorb a particle and count it, if there is a count for its species. -/
def absorbTally : Family.Behavior .boundary := fun params hit species =>
  let absorbed := hit.absorb species
  match params with
  | .tally counts => (absorbed.1, .tally (counts.modify hit.species (· + 1)), absorbed.2)
  | _ => (absorbed.1, params, absorbed.2)

namespace Behaviors

/-- No behavior has a name. -/
def none : Behaviors := ⟨.empty, .empty, .empty⟩

instance : Inhabited Behaviors := ⟨none⟩

/-- The table of a family. -/
def table (b : Behaviors) : (F : Family) → BehaviorTable F
  | .boundary => b.boundary
  | .collision => b.collision
  | .emitter => b.emitter

/-- Name a behavior.  A name that is taken goes to the new one. -/
def define (b : Behaviors) : (F : Family) → String → F.Behavior → Behaviors
  | .boundary, name, f => { b with boundary := b.boundary.insert name f }
  | .collision, name, f => { b with collision := b.collision.insert name f }
  | .emitter, name, f => { b with emitter := b.emitter.insert name f }

/-- The behaviors of the stock boundary conditions. -/
def builtin : Behaviors :=
  (none.define .boundary "maxwellian_reflux" maxwellianReflux).define .boundary "absorb_tally"
    absorbTally

end Behaviors

end ParticleSim
