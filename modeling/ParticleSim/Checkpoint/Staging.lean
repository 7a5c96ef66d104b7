import ParticleSim.Checkpoint.Record
import ParticleSim.Registry
import ParticleSim.Text.Quoted

/-!
# Checkpoint — Staged objects

A stream is restored in two passes.  The first reads every record into a staged object without
looking at references; the second (`connectAll`) lets each object resolve its references against the
complete table.  After that the owner takes the objects out one by one.

* `Decoders` are the readers of the first pass, one for each type tag.
* `Staging` holds the objects in stream order.  A view `α → Option β` picks the objects of one type.
* While an object connects it cannot see itself, only its tag.
-/

namespace ParticleSim

/-- The readers of records, by type tag. -/
abbrev Decoders (α : Type) := OrderedMap String (RecordReader α)

/-- The tags that can be read, as they show in a log. -/
def Decoders.text {α : Type} (d : Decoders α) : String := Text.quotedList d.keys

/-- A staged object, or the place of one that is connecting. -/
structure Slot (α : Type) where
  tag : String
  object : Option α
deriving DecidableEq

/-- Staged objects in stream order. -/
structure Staging (α : Type) where
  slots : OrderedMap ObjectId (Slot α)

namespace Staging

variable {α β : Type}

def empty : Staging α := ⟨.empty⟩

instance : Inhabited (Staging α) := ⟨empty⟩

def size (s : Staging α) : Nat := s.slots.size

def isEmpty (s : Staging α) : Bool := s.slots.isEmpty

/-- The identities that are staged. -/
def ids (s : Staging α) : List ObjectId := s.slots.keys

/-- Stage an object; an identity can be staged once. -/
def insert (s : Staging α) (id : ObjectId) (tag : String) (object : α) :
    Except CheckpointError (Staging α) :=
  if s.slots.contains id then .error (.streamFormat (.twice id))
  else .ok ⟨s.slots.insert id ⟨tag, some object⟩⟩

/-- The tag an identity is staged under. -/
def tag? (s : Staging α) (id : ObjectId) : Option String := (s.slots.find? id).map Slot.tag

/-- The first object with a tag. -/
def findByTag? (s : Staging α) (tag : String) : Option ObjectId :=
  (s.slots.entries.find? fun e => e.2.tag = tag).map Prod.fst

/-- The object of an identity, unless it is connecting. -/
def object? (s : Staging α) (id : ObjectId) : Option α := (s.slots.find? id).bind Slot.object

/-- The object of an identity, if `view` sees it. -/
def get? (s : Staging α) (view : α → Option β) (id : ObjectId) : Option β :=
  (s.object? id).bind view

/-- The target of a reference held by `source`. -/
def resolve (s : Staging α) (view : α → Option β) (source target : ObjectId) :
    Except CheckpointError β :=
  match s.get? view target with
  | some b => .ok b
  | none => .error (.unresolved source target)

/-- Put an object back into its slot, or take it out for the time it connects. -/
def setObject (s : Staging α) (id : ObjectId) (object : Option α) : Staging α :=
  ⟨s.slots.modify id fun slot => { slot with object }⟩

/-- Resolves the references of an object against the others, and may change the object. -/
abbrev Connect (α : Type) := ObjectId → Staging α → EStateM CheckpointError α Unit

/-- Connect the given objects in order, up to the first failure.  An object goes back into its slot
whether it succeeded or not. -/
def connectEach (connect : Connect α) : List ObjectId → EStateM CheckpointError (Staging α) Unit
  | [] => return
  | id :: ids => do
    let s ← get
    match s.object? id with
    | none => connectEach connect ids
    | some object =>
      match connect id (s.setObject id none) object with
      | .ok () object' =>
        set (s.setObject id (some object'))
        connectEach connect ids
      | .error e object' =>
        set (s.setObject id (some object'))
        throw e

/-- Connect every object, in stream order. -/
def connectAll (connect : Connect α) : EStateM CheckpointError (Staging α) Unit := do
  connectEach connect (← get).ids

/-- Take an object out.  Its slot is gone even if the object turns out to be of another type. -/
def take (view : α → Option β) (typeName : String) (id : ObjectId) :
    EStateM CheckpointError (Staging α) β := do
  let s ← get
  match s.slots.find? id with
  | none => throw (.streamFormat (.missing id))
  | some slot =>
    set (⟨s.slots.erase id⟩ : Staging α)
    match slot.object with
    | none => throw (.streamFormat (.takenInTurn id))
    | some object =>
      match view object with
      | none => throw (.streamFormat (.wrongType id slot.tag typeName))
      | some b => return b

/-- The staged tags as they show in a log. -/
def text (s : Staging α) : String :=
  "\x7b" ++ ", ".intercalate (s.slots.entries.map fun e =>
    "ObjectId(" ++ e.1.val.toNat.repr ++ "): " ++ Text.quoted e.2.tag) ++ "\x7d"

/-- The registry of what is staged, going on at `cursor`. -/
def registry (s : Staging α) (cursor : UInt64) : Registry :=
  ⟨s.slots.mapValues fun _ slot => slot.tag, cursor⟩

end Staging

end ParticleSim
