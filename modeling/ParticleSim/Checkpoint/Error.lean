import ParticleSim.Family
import ParticleSim.Text.Utf8

/-!
# Checkpoint — Errors

Everything that can go wrong while a stream is written or read, as causes.

* `FormatFault` is a stream that is not what its reader expects, from a section cut short to a
  component whose id is out of sequence.
* `IoFault` is a refusal of the output or of the file system.
* `CheckpointError` is the sum of these with the failures of a session; `CheckpointError.fatal`
  marks those after which the ranks may no longer agree.
-/

namespace ParticleSim

/-- Which of the two whole-process operations is running. -/
inductive Phase where
  | idle
  | checkpoint
  | restore
deriving DecidableEq, Inhabited

def Phase.text : Phase → String
  | idle => "idle"
  | checkpoint => "checkpoint"
  | restore => "restore"

/-- A refusal of the output or of the file system. -/
inductive IoFault where
  | noSuchFile
  | notDirectory
  | isDirectory
  /-- A directory is asked for by a path that does not end in its name. -/
  | busy
  /-- A name or a path has too many octets. -/
  | nameTooLong
  | nulInName
  /-- The output holds fewer bytes than were written. -/
  | outputFull
deriving DecidableEq

def IoFault.message : IoFault → String
  | noSuchFile => "No such file or directory (os error 2)"
  | notDirectory => "Not a directory (os error 20)"
  | isDirectory => "Is a directory (os error 21)"
  | busy => "Device or resource busy (os error 16)"
  | nameTooLong => "File name too long (os error 36)"
  | nulInName => "file name contained an unexpected NUL byte"
  | outputFull => "failed to write whole buffer"

/-- A failure of the connection between the ranks. -/
inductive CommError where
  /-- A rank went away before the barrier was complete. -/
  | disconnected (peer : Option UInt32)
deriving DecidableEq

def CommError.message : CommError → String
  | disconnected (some peer) => s!"rank {peer.toNat} disconnected"
  | disconnected none => "a peer rank disconnected"

/-- The word for the kind of error. -/
def CommError.kind : CommError → String
  | disconnected _ => "Disconnected"

/-- What a simulation record refers to. -/
inductive SimulationPart where
  | control
  | list (family : Family)
deriving DecidableEq

def SimulationPart.label : SimulationPart → String
  | control => "control state"
  | list .boundary => "boundary list"
  | list .collision => "collision list"
  | list .emitter => "emitter list"

/-- How a stream differs from what its reader expects. -/
inductive FormatFault where
  /-- The input ends inside a value of fixed size. -/
  | truncated
  /-- The input ends inside a section of the given length. -/
  | shortSection (length got : Nat)
  | badText (fault : Text.Utf8Fault)
  /-- The length of a section does not fit its prefix. -/
  | sectionTooLong (length : Nat)
  /-- A fault met while the record of an object was read. -/
  | inRecord (object : ObjectId) (fault : FormatFault)
  | presenceFlag (flag : UInt8)
  | bufferTooLong (entries remaining : Nat)
  | unread (object : ObjectId) (blob fields : Nat)
  | registeredAs (object : ObjectId) (tag reported : String)
  | beyondCursor (object : ObjectId) (cursor : UInt64)
  | noEndMarker
  | trailerCount (trailer header : UInt64)
  | twice (object : ObjectId)
  | missing (object : ObjectId)
  | takenInTurn (object : ObjectId)
  | wrongType (object : ObjectId) (tag expected : String)
  | unknownKind (family : Family) (code : UInt32)
  | unknownBehavior (family : Family) (symbol name : String)
  | unlinkedSuccessor (family : Family) (name : String)
  | unknownBoundaryParams (tag : UInt8)
  | chainTooLong (family : Family) (list : ObjectId) (count : UInt64)
  | notLinked (family : Family) (object list : ObjectId)
  | memberCount (family : Family) (list : ObjectId) (members : Nat) (count : UInt64)
  | idOutOfSequence (family : Family) (object : ObjectId) (name : String)
      (id : Option ComponentId) (expected : ComponentId) (position : Nat)
  | noReference (part : SimulationPart)
  | tooManySpecies
  | noSimulation
  | unreachable (objects : List ObjectId)
  | foreignRank (rank world ownRank ownWorld : UInt32)
deriving DecidableEq

/-- Objects in a message, separated by commas. -/
def ObjectId.listText (ids : List ObjectId) : String := ", ".intercalate (ids.map ObjectId.text)

def FormatFault.message : FormatFault → String
  | truncated => "truncated stream: failed to fill whole buffer"
  | shortSection length got => s!"truncated section: expected {length} bytes, got {got}"
  | badText fault => "invalid UTF-8 string: " ++ fault.message
  | sectionTooLong length => s!"section of {length} bytes too long"
  | inRecord object fault => s!"record {object.text}: " ++ fault.message
  | presenceFlag flag => s!"invalid presence flag {flag.toNat}"
  | bufferTooLong entries remaining =>
    s!"i32 buffer of {entries} entries exceeds remaining {remaining} bytes"
  | unread object blob fields =>
    s!"record {object.text}: {blob} blob and {fields} field bytes left unread"
  | registeredAs object tag reported =>
    s!"object {object.text} registered as '{tag}' but reports '{reported}'"
  | beyondCursor object cursor =>
    s!"object {object.text} beyond registry cursor {cursor.toNat}"
  | noEndMarker => "missing end-of-stream marker"
  | trailerCount trailer header =>
    s!"trailer count {trailer.toNat} does not match header count {header.toNat}"
  | twice object => s!"object {object.text} appears twice in stream"
  | missing object => s!"object {object.text} missing from stream"
  | takenInTurn object => s!"object {object.text} taken during reanimation"
  | wrongType object tag expected =>
    s!"object {object.text} tagged '{tag}' is not a {expected}"
  | unknownKind family code => s!"unknown {family.label} kind code {code.toNat}"
  | unknownBehavior family symbol name =>
    s!"unknown {family.label} behavior '{symbol}' for '{name}'"
  | unlinkedSuccessor family name => s!"unlinked {family.label} '{name}' has a successor"
  | unknownBoundaryParams tag => s!"unknown boundary parameter tag {tag.toNat}"
  | chainTooLong family list count =>
    s!"{family.label} list {list.text} chain is longer than its count {count.toNat}"
  | notLinked family object list =>
    s!"{family.label} {object.text} in list {list.text} is not linked"
  | memberCount family list members count =>
    s!"{family.label} list {list.text} holds {members} members, record says {count.toNat}"
  | idOutOfSequence family object name id expected position =>
    s!"{family.label} {object.text} '{name}' has id " ++ (id.map ComponentId.text).getD "none" ++
      s!", expected {expected.text} at position {position}"
  | noReference part => s!"simulation record has no {part.label}"
  | tooManySpecies => "too many species"
  | noSimulation => "stream holds no simulation record"
  | unreachable objects =>
    s!"{objects.length} object(s) not reachable from the simulation: " ++ ObjectId.listText objects
  | foreignRank rank world ownRank ownWorld =>
    s!"stream was written by rank {rank.toNat} of {world.toNat}, " ++
      s!"this is rank {ownRank.toNat} of {ownWorld.toNat}"

/-- The two points of a restore at which the ranks compare their outcomes. -/
inductive Stage where
  /-- Every record of the stream is read. -/
  | decode
  /-- References are resolved and the simulation is put together. -/
  | connect
deriving DecidableEq

def Stage.text : Stage → String
  | decode => "materialize"
  | connect => "reanimate"

/-- Why a checkpoint or a restore did not succeed. -/
inductive CheckpointError where
  | io (fault : IoFault)
  | invalidMagic
  | unsupportedVersion (found : UInt8)
  | streamFormat (fault : FormatFault)
  | unknownTypeTag (tag : String)
  /-- A reference to an object that is missing or of another type. -/
  | unresolved (source target : ObjectId)
  /-- Registered objects that nobody owns. -/
  | orphaned (objects : List ObjectId)
  | reentrant (requested active : Phase)
  /-- The control layer did not serialize or accept its state. -/
  | controlState (reason : String)
  | peerFailed (stage : Stage)
  | comm (fault : CommError)
deriving DecidableEq

namespace CheckpointError

def message : CheckpointError → String
  | io fault => "I/O error: " ++ fault.message
  | invalidMagic => "invalid magic bytes (expected b\"PLCK\")"
  | unsupportedVersion found => s!"unsupported checkpoint format version {found.toNat}"
  | streamFormat fault => "malformed checkpoint stream: " ++ fault.message
  | unknownTypeTag tag => s!"no materializer for type tag '{tag}'"
  | unresolved source target =>
    s!"object {source.text} references unresolved object {target.text}"
  | orphaned objects =>
    s!"{objects.length} registered object(s) unreachable: " ++ ObjectId.listText objects
  | reentrant requested active =>
    s!"cannot begin {requested.text} while {active.text} is in progress"
  | controlState reason => "control state: " ++ reason
  | peerFailed stage => s!"a peer rank failed during {stage.text}"
  | comm fault => "rank communication failed: " ++ fault.message

/-- The word for the kind of error. -/
def kind : CheckpointError → String
  | io _ => "Io"
  | invalidMagic => "InvalidMagic"
  | unsupportedVersion _ => "UnsupportedVersion"
  | streamFormat _ => "StreamFormat"
  | unknownTypeTag _ => "UnknownTypeTag"
  | unresolved .. => "Unresolved"
  | orphaned _ => "Orphaned"
  | reentrant .. => "Reentrant"
  | controlState _ => "ControlState"
  | peerFailed _ => "PeerFailed"
  | comm _ => "Comm"

/-- The fault of the output or of the file system behind the error. -/
def source? : CheckpointError → Option IoFault
  | io fault => some fault
  | _ => none

/-- Whether the run has to end: the ranks may have come to differ. -/
def fatal : CheckpointError → Bool
  | streamFormat _ | unknownTypeTag _ | unresolved .. | reentrant .. | peerFailed _ | comm _ => true
  | io _ | invalidMagic | unsupportedVersion _ | orphaned _ | controlState _ => false

/-- A format fault is named together with the record it was met in. -/
def inRecord (object : ObjectId) : CheckpointError → CheckpointError
  | streamFormat fault => streamFormat (.inRecord object fault)
  | e => e

end CheckpointError

end ParticleSim
