import ParticleSim.Roster.Record
import ParticleSim.Simulation.Basic

/-!
# Simulation — Records and restores

The live objects of a simulation are itself, its control state, its lists and their members
(`Simulation.store`).  A restore stages the records of a stream (`Staged.decoders`), resolves the
references between them (`Staged.connect`) and puts the simulation together from the one simulation
record (`Simulation.assemble`), leaving nothing over.
-/

namespace ParticleSim

namespace Simulation

/-- What a species adds to the record: scalars to the blob, the name to the fields. -/
def speciesData (sp : Species) : List Datum :=
  [.f32 sp.charge, .f32 sp.mass, .u64 sp.population, .text sp.name]

/-- The record refers to the control state and the lists; the species and the field are in it. -/
def data (s : Simulation) : Except CheckpointError (List Datum) :=
  if s.species.size < UInt32.size then
    .ok (.u64 s.step :: .u32 (.ofNat s.species.size) :: s.species.toList.flatMap speciesData ++
      (match s.field with
        | some damping => [.u8 1, .f32 damping]
        | none => [.u8 0]) ++
      [.pointer s.controlObject, .pointer s.boundaries.object, .pointer s.collisions.object,
        .pointer s.emitters.object])
  else .error (.streamFormat .tooManySpecies)

/-- The live object of an identity. -/
def store (s : Simulation) : Store := fun id =>
  if id = s.object then some ⟨simulationTag, s.data⟩
  else if id = s.controlObject then some ⟨controlTag, .ok [.bytes s.control]⟩
  else if id = s.boundaries.object then some s.boundaries.live
  else if id = s.collisions.object then some s.collisions.live
  else if id = s.emitters.object then some s.emitters.live
  else
    ((s.boundaries.get? id).map Component.live).or
      (((s.collisions.get? id).map Component.live).or
        ((s.emitters.get? id).map Component.live))

/-- Registered objects that the simulation does not own. -/
def orphans (s : Simulation) : List ObjectId := s.registry.orphans fun id => (s.store id).isSome

end Simulation

/-- A simulation that was read from a stream, before its parts are found. -/
structure SimulationRecord where
  step : UInt64
  species : SpeciesList
  field : Option Real32
  control : ObjectId
  boundaries : ObjectId
  collisions : ObjectId
  emitters : ObjectId
deriving DecidableEq

namespace SimulationRecord

def readSpecies : RecordReader Species := do
  let charge ← RecordReader.f32
  let mass ← RecordReader.f32
  let population ← RecordReader.u64
  return ⟨← RecordReader.text, charge, mass, population⟩

def readField : RecordReader (Option Real32) := do
  if (← RecordReader.u8) = 0 then return none
  return some (← RecordReader.f32)

/-- A reference that has to be there. -/
def readPart (part : SimulationPart) : RecordReader ObjectId := do
  match ← RecordReader.pointer with
  | some object => return object
  | none => RecordReader.fault (.noReference part)

def read : RecordReader SimulationRecord := do
  let step ← RecordReader.u64
  let count ← RecordReader.u32
  let species ← RecordReader.times count.toNat readSpecies
  let field ← readField
  let control ← readPart .control
  let boundaries ← readPart (.list .boundary)
  let collisions ← readPart (.list .collision)
  let emitters ← readPart (.list .emitter)
  return ⟨step, ⟨species⟩, field, control, boundaries, collisions, emitters⟩

end SimulationRecord

/-- What a record of a simulation's stream becomes. -/
inductive Staged where
  | component (F : Family) (c : Component F)
  | roster (F : Family) (r : RosterRecord F)
  | control (state : Bytes)
  | simulation (r : SimulationRecord)

namespace Staged

/-! ### Views -/

def component? (F : Family) : Staged → Option (Component F)
  | component G c => if h : G = F then some (h ▸ c) else none
  | _ => none

def roster? (F : Family) : Staged → Option (RosterRecord F)
  | roster G r => if h : G = F then some (h ▸ r) else none
  | _ => none

def control? : Staged → Option Bytes
  | control state => some state
  | _ => none

def simulation? : Staged → Option SimulationRecord
  | simulation r => some r
  | _ => none

/-! ### The two passes -/

/-- The readers of the components and the list of a family, besides others. -/
def familyDecoders (behaviors : Behaviors) (decoders : Decoders Staged) (F : Family) :
    Decoders Staged :=
  (decoders.insert F.tag (component F <$> Component.read behaviors F)).insert F.listTag
    (roster F <$> RosterRecord.read F)

/-- The readers of components and lists. -/
def componentDecoders (behaviors : Behaviors) : Decoders Staged :=
  Family.all.foldl (familyDecoders behaviors) .empty

/-- The readers of everything in the stream of a simulation. -/
def decoders (behaviors : Behaviors) : Decoders Staged :=
  ((componentDecoders behaviors).insert controlTag (control <$> RecordReader.bytes)).insert
    simulationTag (simulation <$> SimulationRecord.read)

/-- A simulation record is connected when its control state and its lists are staged as such. -/
def connectSimulation (r : SimulationRecord) (id : ObjectId) (staged : Staging Staged) :
    Except CheckpointError Unit := do
  discard (staged.resolve control? id r.control)
  discard (staged.resolve (roster? .boundary) id r.boundaries)
  discard (staged.resolve (roster? .collision) id r.collisions)
  discard (staged.resolve (roster? .emitter) id r.emitters)

/-- Resolve the references of a staged object. -/
def connect : Staging.Connect Staged := fun id staged => do
  match ← get with
  | component _ c => MonadExcept.ofExcept (c.connect id staged)
  | roster F r =>
    match RosterRecord.connect (component? F) id staged r with
    | .ok () r => set (roster F r)
    | .error e r =>
      set (roster F r)
      throw e
  | control _ => return
  | simulation r => MonadExcept.ofExcept (connectSimulation r id staged)

end Staged

namespace Simulation

/-- Take the list of a family out of the staged objects, with its members. -/
def takeList (F : Family) (object : ObjectId) (place : ListInstance) :
    EStateM CheckpointError (Staging Staged) (Roster F) := do
  let r ← Staging.take (Staged.roster? F) F.listTag object
  r.assemble place (Staged.component? F)

/-- Put a simulation together from connected objects.  None of them may be left. -/
def assembleFrom (behaviors : Behaviors) (cursor : UInt64) (place₁ place₂ place₃ : ListInstance) :
    EStateM CheckpointError (Staging Staged) Simulation := do
  let staged ← get
  match staged.findByTag? simulationTag with
  | none => throw (.streamFormat .noSimulation)
  | some object =>
    let r ← Staging.take Staged.simulation? simulationTag object
    let control ← Staging.take Staged.control? controlTag r.control
    let boundaries ← takeList .boundary r.boundaries place₁
    let collisions ← takeList .collision r.collisions place₂
    let emitters ← takeList .emitter r.emitters place₃
    let left := (← get).ids
    unless left.isEmpty do throw (.streamFormat (.unreachable left))
    return {
      registry := staged.registry cursor
      behaviors, object
      controlObject := r.control
      control
      species := r.species
      field := r.field
      step := r.step
      boundaries, collisions, emitters }

/-- The simulation of connected objects; its lists are lists of their own. -/
def assemble (behaviors : Behaviors) (cursor : UInt64) (staged : Staging Staged)
    (supply : InstanceSupply) : Except CheckpointError (Simulation × InstanceSupply) :=
  let (place₁, supply) := supply.take
  let (place₂, supply) := supply.take
  let (place₃, supply) := supply.take
  match assembleFrom behaviors cursor place₁ place₂ place₃ staged with
  | .ok s _ => .ok (s, supply)
  | .error e _ => .error e

end Simulation

end ParticleSim
