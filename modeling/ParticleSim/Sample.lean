import ParticleSim.Recipe

/-!
# Samples — Behaviors and simulations to try things with

Behaviors with effects that are easy to see, and simulations made of three of them.
-/

namespace ParticleSim.Sample

/-- Counts its calls in the first byte of its state and adds a particle of the first species. -/
def drag : Family.Behavior .collision := fun state species =>
  let state := match state with
    | [] => [1]
    | n :: rest => (n + 1) :: rest
  (state, species.updatePopulation 0 (· + 1))

/-- Writes down how many species there are. -/
def recordStep : Family.Behavior .collision := fun state species =>
  (state ++ [.ofNat species.size], species)

/-- Writes down how many voxels there are, counts up every voxel and doubles the first species. -/
def inject : Family.Behavior .emitter := fun state n voxels species =>
  (state ++ [.ofNat n], voxels.map (· + 1), species.updatePopulation 0 (2 * ·))

/-- The built-in behaviors and the three above. -/
def behaviors : Behaviors :=
  ((Behaviors.builtin.define .collision "drag" drag).define .collision "record_step"
    recordStep).define .emitter "inject" inject

/-- Reflects at even faces and reinjects at odd ones. -/
def parity : Family.Behavior .boundary := fun params hit species =>
  (if hit.face % 2 = 0 then .reflected else .reinjected, params, species)

/-- The first byte of a state, by which operators that act alike are told apart. -/
def mark (state : Bytes) : UInt8 := state.head?.getD 0

/-- Writes its mark behind the digits of the first population. -/
def stamp : Family.Behavior .collision := fun state species =>
  (state, species.updatePopulation 0 fun n => n * 10 + (mark state).toUInt64)

/-- Defines a species named after how many there are, and writes down whether that went well. -/
def spawn : Family.Behavior .collision := fun state species =>
  match species.define ("s" ++ species.size.repr) ⟨0x3F800000⟩ ⟨0x40000000⟩ with
  | .ok species => (state ++ [1], species)
  | .error _ => (state ++ [0], species)

/-- Writes its mark into every voxel, and their number behind the digits of the first population. -/
def brand : Family.Behavior .emitter := fun state n voxels species =>
  (state, voxels.map (· * 3 + .ofNat (mark state).toNat),
    species.updatePopulation 0 fun population => population * 10 + .ofNat n)

/-- All behaviors of this module and the built-in ones. -/
def catalogue : Behaviors :=
  (((behaviors.define .boundary "parity" parity).define .collision "stamp" stamp).define .collision
    "spawn" spawn).define .emitter "mark" brand

/-- What a sample simulation is made of. -/
structure Plan where
  behaviors : Behaviors := Sample.behaviors
  /-- Names with charge and mass. -/
  species : List (String × Real32 × Real32) := []
  damping : Option Real32 := none
  /-- Boundary conditions that count. -/
  boundaries : List String := []
  /-- Operators with the behavior `drag`. -/
  collisions : List String := []
  /-- Emitters with the behavior `inject`, and how many voxels they have. -/
  emitters : List (String × Nat) := []

/-- Add what a plan says, in its order. -/
def Plan.define (p : Plan) : SimulationM Unit := do
  p.species.forM fun (name, charge, mass) => discard (Simulation.defineSpecies name charge mass)
  p.damping.forM Simulation.defineField
  Recipe.applyAll (p.boundaries.map Recipe.tallying)
  Recipe.applyAll (p.collisions.map fun name => Recipe.colliding name .langevin "drag" [0])
  Recipe.applyAll (p.emitters.map fun (name, voxels) =>
    Recipe.emitting name .user "inject" [] voxels)

/-- The simulation of a plan, which has to be sound. -/
def Plan.build (p : Plan) (supply : InstanceSupply) :
    Except ComponentError (Simulation × InstanceSupply) :=
  let (s, supply) := Simulation.new p.behaviors supply
  match p.define s with
  | .ok () s => .ok (s, supply)
  | .error e _ => .error e

/-- Two species in a field, three boundary conditions, a collision operator and an emitter. -/
def populated : Plan where
  species := [("electron", ⟨0xBF800000⟩, ⟨0x3F800000⟩), ("ion", ⟨0x3F800000⟩, ⟨0x44E58000⟩)]
  damping := some ⟨0x3C23D70A⟩
  boundaries := ["a", "b", "c"]
  collisions := ["drag"]
  emitters := [("cathode", 3)]

end ParticleSim.Sample
