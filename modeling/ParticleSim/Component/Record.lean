import ParticleSim.Checkpoint.Stream
import ParticleSim.Component.Basic

/-!
# Components — Records

A component writes the code of its kind, its id and whether it is linked into the blob, and its
name, the name of its behavior and its successor into the fields; its parameters follow.  Reading it
back looks the behavior up in the tables at hand.
-/

namespace ParticleSim

namespace Component

variable {F : Family}

/-- The object that joined the list before this one. -/
def successor? (c : Component F) : Option ObjectId :=
  match c.link with
  | some (.next object) => some object
  | _ => none

def data (c : Component F) : List Datum :=
  .u32 (F.code c.kind) ::
    (match c.id with
      | some id => [.u8 1, .i64 id.val]
      | none => [.u8 0]) ++
    [.u8 (if c.link.isSome then 1 else 0), .text c.name, .symbol (c.behavior.map (·.symbol)),
      .pointer c.successor?] ++
    F.paramsData c.params

/-- A component as a checkpoint sees it. -/
def live (c : Component F) : LiveObject := ⟨F.tag, .ok c.data⟩

/-- The kind with the next code. -/
def readKind (F : Family) : RecordReader F.Kind := do
  let code ← RecordReader.u32
  match F.kindOf? code with
  | some kind => return kind
  | none => RecordReader.fault (.unknownKind F code)

/-- An id behind its flag. -/
def readId : RecordReader (Option ComponentId) := do
  if (← RecordReader.u8) = 0 then return none
  return some ⟨← RecordReader.i64⟩

/-- The behavior with the next name, for the component called `name`. -/
def readBehavior (behaviors : Behaviors) (F : Family) (name : String) :
    RecordReader (Option (BoundBehavior F)) := do
  match behaviors.bind F (← RecordReader.symbol) with
  | .ok behavior => return behavior
  | .error symbol => RecordReader.fault (.unknownBehavior F symbol name)

/-- The link that goes with a flag and a successor; only a linked component has a successor. -/
def readLink (F : Family) (name : String) (linked : Bool) : RecordReader (Option Link) := do
  match linked, ← RecordReader.pointer with
  | true, some next => return some (.next next)
  | true, none => return some .last
  | false, none => return none
  | false, some _ => RecordReader.fault (.unlinkedSuccessor F name)

def read (behaviors : Behaviors) (F : Family) : RecordReader (Component F) := do
  let kind ← readKind F
  let id ← readId
  let linked ← RecordReader.u8
  let name ← RecordReader.text
  let behavior ← readBehavior behaviors F name
  let link ← readLink F name (linked ≠ 0)
  let params ← F.readParams
  return ⟨← RecordReader.object, name, id, kind, params, behavior, link⟩

end Component

end ParticleSim
