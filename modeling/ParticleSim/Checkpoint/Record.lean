import ParticleSim.Checkpoint.Bytes
import ParticleSim.Species

/-!
# Checkpoint — Records

An object is written as a list of data (`Datum`), each of which lands in one of the two sections of
its record: scalars in the `blob`, everything of variable length in the `fields`.  The sections are
independent: what stands in one does not depend on when the other was written to.

A `RecordReader` takes data off the front of the two sections.  Its faults name the object
(`FormatFault.inRecord`), and `finish` refuses a record with anything left.
-/

namespace ParticleSim

/-- One value written into a record. -/
inductive Datum where
  | u8 (v : UInt8)
  | u32 (v : UInt32)
  | u64 (v : UInt64)
  | i64 (v : Int64)
  | f32 (v : Real32)
  | text (s : String)
  | bytes (b : Bytes)
  /-- The name of a behavior. -/
  | symbol (name : Option String)
  /-- A reference to a registered object. -/
  | pointer (target : Option ObjectId)
  | i32s (values : List Int32)
deriving DecidableEq

namespace Datum

/-- A flag for presence, then the value. -/
def optional {α : Type} (write : α → Bytes) : Option α → Bytes
  | none => [0]
  | some a => 1 :: write a

/-- What a datum adds to the blob. -/
def blob : Datum → Bytes
  | u8 v => [v]
  | u32 v => Bytes.ofU32 v
  | u64 v => Bytes.ofU64 v
  | i64 v => Bytes.ofU64 v.toUInt64
  | f32 v => Bytes.ofU32 v.bits
  | text _ | bytes _ | symbol _ | pointer _ | i32s _ => []

/-- What a datum adds to the fields. -/
def fields : Datum → Bytes
  | u8 _ | u32 _ | u64 _ | i64 _ | f32 _ => []
  | text s => Bytes.sized (Text.encode s)
  | bytes b => Bytes.sized b
  | symbol name => optional (fun s => Bytes.sized (Text.encode s)) name
  | pointer target => optional (fun id : ObjectId => Bytes.ofU64 id.val) target
  | i32s values =>
    Bytes.ofU32 (.ofNat values.length) ++ values.flatMap fun v => Bytes.ofU32 v.toUInt32

end Datum

/-- The two sections of a record. -/
structure Record where
  blob : Bytes
  fields : Bytes
deriving DecidableEq

/-- The record that holds the data, in order. -/
def Record.ofData (data : List Datum) : Record :=
  ⟨data.flatMap Datum.blob, data.flatMap Datum.fields⟩

/-- A record being read: what is left of its sections. -/
structure OpenRecord where
  /-- The object the record belongs to. -/
  object : ObjectId
  blob : Bytes
  fields : Bytes
deriving DecidableEq

/-- A record none of which has been read. -/
def Record.open (r : Record) (object : ObjectId) : OpenRecord := ⟨object, r.blob, r.fields⟩

/-- Reads data from a record.  A failed read leaves what it did not take. -/
abbrev RecordReader := EStateM CheckpointError OpenRecord

namespace RecordReader

/-- The object the record belongs to. -/
def object : RecordReader ObjectId := return (← get).object

/-- A fault of the stream's form. -/
def fault {α : Type} (f : FormatFault) : RecordReader α := throw (.streamFormat f)

/-- Read from the blob. -/
def ofBlob {α : Type} (read : ByteReader FormatFault α) : RecordReader α := fun r =>
  match read r.blob with
  | .ok a rest => .ok a { r with blob := rest }
  | .error f rest => .error (.streamFormat (.inRecord r.object f)) { r with blob := rest }

/-- Read from the fields. -/
def ofFields {α : Type} (read : ByteReader FormatFault α) : RecordReader α := fun r =>
  match read r.fields with
  | .ok a rest => .ok a { r with fields := rest }
  | .error f rest => .error (.streamFormat (.inRecord r.object f)) { r with fields := rest }

def u8 : RecordReader UInt8 := ofBlob ByteReader.u8

def u32 : RecordReader UInt32 := ofBlob ByteReader.u32

def u64 : RecordReader UInt64 := ofBlob ByteReader.u64

def i64 : RecordReader Int64 := return (← u64).toInt64

def f32 : RecordReader Real32 := return ⟨← u32⟩

def bytes : RecordReader Bytes := ofFields ByteReader.sized

def text : RecordReader String := ofFields ByteReader.text

/-- A presence flag. -/
def present : RecordReader Bool := ofFields do
  match ← ByteReader.u8 with
  | 0 => return false
  | 1 => return true
  | flag => throw (.presenceFlag flag)

/-- The name of a behavior, if there is one. -/
def symbol : RecordReader (Option String) := do
  if ← present then return some (← text) else return none

/-- A reference, if there is one. -/
def pointer : RecordReader (Option ObjectId) := do
  if ← present then return some ⟨← ofFields ByteReader.u64⟩ else return none

/-- Repeat a reader `n` times. -/
def times {σ ε α : Type} (n : Nat) (read : EStateM ε σ α) : EStateM ε σ (List α) :=
  match n with
  | 0 => return []
  | n + 1 => return (← read) :: (← times n read)

/-- A buffer of words after their number, which may not promise more than the fields still hold. -/
def i32s : RecordReader (List Int32) := ofFields do
  let entries ← ByteReader.u32
  let rest ← get
  if rest.length < 4 * entries.toNat then throw (.bufferTooLong entries.toNat rest.length)
  times entries.toNat (return (← ByteReader.u32).toInt32)

/-- Refuse a record with anything left. -/
def finish : RecordReader Unit := do
  let r ← get
  unless r.blob.isEmpty && r.fields.isEmpty do
    fault (.unread r.object r.blob.length r.fields.length)

end RecordReader

/-- The kinds of data, one for each way to read. -/
inductive DatumKind where
  | u8 | u32 | u64 | i64 | f32 | text | bytes | symbol | pointer | i32s
deriving DecidableEq

/-- The kind a datum is written as. -/
def Datum.kind : Datum → DatumKind
  | u8 _ => .u8
  | u32 _ => .u32
  | u64 _ => .u64
  | i64 _ => .i64
  | f32 _ => .f32
  | text _ => .text
  | bytes _ => .bytes
  | symbol _ => .symbol
  | pointer _ => .pointer
  | i32s _ => .i32s

/-- Read a datum of the given kind. -/
def RecordReader.datum : DatumKind → RecordReader Datum
  | .u8 => .u8 <$> u8
  | .u32 => .u32 <$> u32
  | .u64 => .u64 <$> u64
  | .i64 => .i64 <$> i64
  | .f32 => .f32 <$> f32
  | .text => .text <$> text
  | .bytes => .bytes <$> bytes
  | .symbol => .symbol <$> symbol
  | .pointer => .pointer <$> pointer
  | .i32s => .i32s <$> i32s

end ParticleSim
