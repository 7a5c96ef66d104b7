import ParticleSim.Component.Record
import ParticleSim.Roster.Basic

/-!
# Rosters — Records

A list writes its length, its version and its head; the members have records of their own, which the
links hold together.  A restore reads the record (`RosterRecord.read`), follows the links through
the staged objects (`RosterRecord.connect`) and moves the members into a live list
(`RosterRecord.assemble`).
-/

namespace ParticleSim

namespace Roster

variable {F : Family}

def data (l : Roster F) : List Datum :=
  [.u64 (.ofNat l.size), .u64 l.version.val, .pointer (l.head?.map (·.object))]

/-- A list as a checkpoint sees it. -/
def live (l : Roster F) : LiveObject := ⟨F.listTag, .ok l.data⟩

end Roster

/-- A list that was read from a stream. -/
structure RosterRecord (F : Family) where
  object : ObjectId
  /-- How many members the record claims. -/
  count : UInt64
  version : ListVersion
  head : Option ObjectId
  /-- The members in the order in which they joined; known once the list is connected. -/
  members : List ObjectId
deriving DecidableEq

namespace RosterRecord

variable {F : Family} {α : Type}

def read (F : Family) : RecordReader (RosterRecord F) := do
  let count ← RecordReader.u64
  let version ← RecordReader.u64
  let head ← RecordReader.pointer
  return ⟨← RecordReader.object, count, ⟨version⟩, head, []⟩

/-- Where the link of a staged component leads, for the list with identity `id`. -/
def follow (view : α → Option (Component F)) (id : ObjectId) (staged : Staging α)
    (object : ObjectId) : Except CheckpointError (Option ObjectId) := do
  let c ← staged.resolve view id object
  match c.link with
  | some (.next next) => return some next
  | some .last => return none
  | none => .error (.streamFormat (.notLinked F object id))

/-- Follow the links from `cursor` through at most `budget` components, in front of the `joined`
ones that were passed already. -/
def walk (r : RosterRecord F) (view : α → Option (Component F)) (id : ObjectId)
    (staged : Staging α) :
    (budget : Nat) → (cursor : Option ObjectId) → (joined : List ObjectId) →
      Except CheckpointError (List ObjectId)
  | _, none, joined => .ok joined
  | 0, some _, _ => .error (.streamFormat (.chainTooLong F id r.count))
  | budget + 1, some object, joined => do
    walk r view id staged budget (← follow view id staged object) (object :: joined)

/-- Find the members; a chain is as long as the record claims. -/
def connect (view : α → Option (Component F)) (id : ObjectId) (staged : Staging α) :
    EStateM CheckpointError (RosterRecord F) Unit := do
  let r ← get
  match r.walk view id staged r.count.toNat r.head [] with
  | .error e => throw e
  | .ok members =>
    if members.length = r.count.toNat then
      set ({ r with members } : RosterRecord F)
    else throw (.streamFormat (.memberCount F id members.length r.count))

/-- Move the members with the given identities from the staged objects into a list.  The id of each
is the one that it would be given if it joined now. -/
def moveMembers (view : α → Option (Component F)) :
    List ObjectId → Roster F → EStateM CheckpointError (Staging α) (Roster F)
  | [], l => return l
  | object :: objects, l => do
    let c ← Staging.take view F.tag object
    let expected := F.nextId c.kind l.count
    if c.id = some expected then
      moveMembers view objects { l with members := l.members ++ [c] }
    else
      throw (.streamFormat (.idOutOfSequence F object c.name c.id expected l.size))

/-- The live list of a connected record. -/
def assemble (r : RosterRecord F) (place : ListInstance) (view : α → Option (Component F)) :
    EStateM CheckpointError (Staging α) (Roster F) :=
  moveMembers view r.members ⟨r.object, place, [], r.version⟩

end RosterRecord

namespace Component

/-- A component whose successor is staged under another tag than its own is not connected. -/
def connect {F : Family} {α : Type} (c : Component F) (id : ObjectId) (staged : Staging α) :
    Except CheckpointError Unit :=
  match c.link with
  | some (.next next) =>
    if staged.tag? next = some F.tag then .ok () else .error (.unresolved id next)
  | _ => .ok ()

end Component

end ParticleSim
