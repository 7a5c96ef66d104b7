import ParticleSim.Checkpoint.Record

/-!
# Components — Parameters

What a component carries besides its name and kind, and how it is written into the component's
record.  A boundary condition has nothing, thermal speeds or counts; a collision operator has bytes
of its own; an emitter has bytes and, once it is sized, a buffer of voxels.
-/

namespace ParticleSim

/-- State of a boundary condition, by species index. -/
inductive BoundaryParams where
  | none
  | reflux (parallel perpendicular : List Real32)
  | tally (absorbed : List UInt64)
deriving DecidableEq

/-- State of an emitter. -/
structure EmitterParams where
  state : Bytes
  /-- Where the emitter emits; absent until it is sized. -/
  voxels : Option (Array Int32)
deriving DecidableEq

namespace BoundaryParams

/-- A list of scalars after its length, all in the blob. -/
def counted {α : Type} (write : α → Datum) (values : List α) : List Datum :=
  .u32 (.ofNat values.length) :: values.map write

def data : BoundaryParams → List Datum
  | none => [.u8 0]
  | reflux parallel perpendicular => .u8 1 :: counted .f32 parallel ++ counted .f32 perpendicular
  | tally absorbed => .u8 2 :: counted .u64 absorbed

/-- As many scalars as the blob says. -/
def readCounted {α : Type} (read : RecordReader α) : RecordReader (List α) := do
  RecordReader.times (← RecordReader.u32).toNat read

def read : RecordReader BoundaryParams := do
  match ← RecordReader.u8 with
  | 0 => return none
  | 1 =>
    let parallel ← readCounted RecordReader.f32
    let perpendicular ← readCounted RecordReader.f32
    return reflux parallel perpendicular
  | 2 => return tally (← readCounted RecordReader.u64)
  | tag => RecordReader.fault (.unknownBoundaryParams tag)

end BoundaryParams

namespace EmitterParams

/-- Parameters of an emitter that is not sized. -/
def ofState (state : Bytes) : EmitterParams := ⟨state, none⟩

/-- Put values into the first voxels; the buffer keeps its size. -/
def overwrite (p : EmitterParams) (values : List Int32) : EmitterParams :=
  { p with voxels := p.voxels.map fun voxels =>
      (values.take voxels.size ++ voxels.toList.drop values.length).toArray }

def data (p : EmitterParams) : List Datum :=
  match p.voxels with
  | none => [.bytes p.state, .u8 0]
  | some voxels => [.bytes p.state, .u8 1, .i32s voxels.toList]

/-- Every flag but `0` announces a buffer. -/
def read : RecordReader EmitterParams := do
  let state ← RecordReader.bytes
  if (← RecordReader.u8) = 0 then return ⟨state, none⟩
  return ⟨state, some (← RecordReader.i32s).toArray⟩

end EmitterParams

namespace Family

/-- The parameters of a family. -/
abbrev Params : Family → Type
  | boundary => BoundaryParams
  | collision => Bytes
  | emitter => EmitterParams

instance : (F : Family) → DecidableEq F.Params
  | boundary => inferInstanceAs (DecidableEq BoundaryParams)
  | collision => inferInstanceAs (DecidableEq Bytes)
  | emitter => inferInstanceAs (DecidableEq EmitterParams)

/-- What the parameters add to the component's record. -/
def paramsData : (F : Family) → F.Params → List Datum
  | boundary, p => BoundaryParams.data p
  | collision, p => [.bytes p]
  | emitter, p => EmitterParams.data p

/-- Read what `paramsData` wrote. -/
def readParams : (F : Family) → RecordReader F.Params
  | boundary => BoundaryParams.read
  | collision => RecordReader.bytes
  | emitter => EmitterParams.read

end Family

end ParticleSim
