import ParticleSim.Checkpoint.Staging

/-!
# Checkpoint — Streams

A stream is

    "PLCK"  version  producer  rank  world  cursor  count
    count records:  identity  tag  blob  fields
    "DONE"  count

with words as in `Bytes` and text, blob and fields as sections.

* `Stream.write` puts out every registered object, in registration order.  It stops at the first
  failure; what it has put out by then stands (`Emission`).
* `Stream.read` stages every record.  It stops behind the trailer and leaves the rest of the input.
-/

namespace ParticleSim

/-- Bytes put out, and the failure that ended the output. -/
structure Emission where
  bytes : Bytes
  failure : Option CheckpointError
deriving DecidableEq

namespace Emission

/-- Bytes without a failure. -/
def put (bytes : Bytes) : Emission := ⟨bytes, none⟩

/-- A failure before anything is put out. -/
def fail (e : CheckpointError) : Emission := ⟨[], some e⟩

/-- One output and, unless it failed, another. -/
def andThen (first second : Emission) : Emission :=
  match first.failure with
  | some _ => first
  | none => ⟨first.bytes ++ second.bytes, second.failure⟩

/-- Outputs from left to right up to the first that fails. -/
def sequence : List Emission → Emission
  | [] => put []
  | e :: es => e.andThen (sequence es)

/-- A section.  A length that its prefix cannot hold is a failure. -/
def sized (bytes : Bytes) : Emission :=
  if bytes.length < UInt32.size then put (Bytes.sized bytes)
  else fail (.streamFormat (.sectionTooLong bytes.length))

/-- What arrives at an output that holds `capacity` bytes, or any number. -/
def within (e : Emission) : (capacity : Option Nat) → Emission
  | none => e
  | some capacity =>
    if e.bytes.length ≤ capacity then e
    else ⟨e.bytes.take capacity, some (.io .outputFull)⟩

end Emission

/-- Who wrote a stream. -/
structure Origin where
  producer : String
  rank : UInt32
  world : UInt32
deriving DecidableEq

/-- What a stream says of itself before its records. -/
structure Header where
  origin : Origin
  /-- The cursor of the registry when the stream was written. -/
  cursor : UInt64
  /-- How many records follow. -/
  count : UInt64
deriving DecidableEq

/-- An object as a checkpoint sees it. -/
structure LiveObject where
  /-- The type tag the object claims. -/
  tag : String
  /-- What it writes, or why it cannot. -/
  data : Except CheckpointError (List Datum)

/-- The live objects by identity. -/
abbrev Store := ObjectId → Option LiveObject

namespace Stream

/-- What a stream begins with. -/
def magic : Bytes := [0x50, 0x4C, 0x43, 0x4B]

/-- What stands between the records and the trailer. -/
def endMarker : Bytes := [0x44, 0x4F, 0x4E, 0x45]

/-- The version of the format. -/
def version : UInt8 := 1

/-- The header. -/
def header (h : Header) : Emission :=
  .sequence
    [.put (magic ++ [version]), .sized (Text.encode h.origin.producer),
      .put (Bytes.ofU32 h.origin.rank ++ Bytes.ofU32 h.origin.world ++ Bytes.ofU64 h.cursor ++
        Bytes.ofU64 h.count)]

/-- A record with its identity and tag. -/
def record (id : ObjectId) (tag : String) (r : Record) : Emission :=
  .sequence
    [.put (Bytes.ofU64 id.val), .sized (Text.encode tag), .sized r.blob, .sized r.fields]

/-- The record of a registered object, or why it has none. -/
def entry (store : Store) (id : ObjectId) (tag : String) : Emission :=
  match store id with
  | none => .fail (.orphaned [id])
  | some object =>
    if object.tag ≠ tag then .fail (.streamFormat (.registeredAs id tag object.tag))
    else
      match object.data with
      | .error e => .fail e
      | .ok data => record id tag (.ofData data)

/-- The end marker and the number of records once more. -/
def trailer (count : UInt64) : Emission := .put (endMarker ++ Bytes.ofU64 count)

/-- The stream of the registered objects. -/
def write (origin : Origin) (registry : Registry) (store : Store) : Emission :=
  let count : UInt64 := .ofNat registry.size
  .sequence
    [header ⟨origin, registry.cursor, count⟩,
      .sequence (registry.entries.entries.map fun e => entry store e.1 e.2),
      trailer count]

/-- Reads a stream. -/
abbrev Reader := ByteReader CheckpointError

/-- Read words, sections and text of a stream. -/
def Reader.lift {α : Type} (read : ByteReader FormatFault α) : Reader α := fun input =>
  match read input with
  | .ok a rest => .ok a rest
  | .error f rest => .error (.streamFormat f) rest

/-- Read the header. -/
def readHeader : Reader Header := do
  let start ← Reader.lift (ByteReader.exactly 4)
  unless start = magic do throw .invalidMagic
  let found ← Reader.lift ByteReader.u8
  unless found = version do throw (.unsupportedVersion found)
  let producer ← Reader.lift ByteReader.text
  let rank ← Reader.lift ByteReader.u32
  let world ← Reader.lift ByteReader.u32
  let cursor ← Reader.lift ByteReader.u64
  let count ← Reader.lift ByteReader.u64
  return ⟨⟨producer, rank, world⟩, cursor, count⟩

variable {α : Type}

/-- Read the whole of a record with the decoder of its tag. -/
def decodeRecord (decoders : Decoders α) (id : ObjectId) (tag : String) (r : Record) :
    Except CheckpointError α :=
  match decoders.find? tag with
  | none => .error (.unknownTypeTag tag)
  | some decode =>
    match (do let a ← decode; RecordReader.finish; return a : RecordReader α) (r.open id) with
    | .ok a _ => .ok a
    | .error e _ => .error e

/-- Read a record and stage its object. -/
def readRecord (decoders : Decoders α) (cursor : UInt64) (staged : Staging α) :
    Reader (Staging α) := do
  let id : ObjectId := ⟨← Reader.lift ByteReader.u64⟩
  unless id.val < cursor do throw (.streamFormat (.beyondCursor id cursor))
  let tag ← Reader.lift ByteReader.text
  let blob ← Reader.lift ByteReader.sized
  let fields ← Reader.lift ByteReader.sized
  match decodeRecord decoders id tag ⟨blob, fields⟩ with
  | .error e => throw e
  | .ok object =>
    match staged.insert id tag object with
    | .error e => throw e
    | .ok staged => return staged

/-- Read records one after the other. -/
def readRecords (decoders : Decoders α) (cursor : UInt64) :
    (count : Nat) → Staging α → Reader (Staging α)
  | 0, staged => return staged
  | count + 1, staged => do
    readRecords decoders cursor count (← readRecord decoders cursor staged)

/-- Read the end marker and the trailer. -/
def readTrailer (count : UInt64) : Reader Unit := do
  let marker ← Reader.lift (ByteReader.exactly 4)
  unless marker = endMarker do throw (.streamFormat .noEndMarker)
  let found ← Reader.lift ByteReader.u64
  unless found = count do throw (.streamFormat (.trailerCount found count))

/-- Stage every record of a stream. -/
def read (decoders : Decoders α) : Reader (Header × Staging α) := do
  let h ← readHeader
  let staged ← readRecords decoders h.cursor h.count.toNat .empty
  readTrailer h.count
  return (h, staged)

end Stream

end ParticleSim
