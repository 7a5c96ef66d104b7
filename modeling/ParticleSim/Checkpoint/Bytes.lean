import ParticleSim.Checkpoint.Error

/-!
# Checkpoint — Words, sections and text as bytes

Words are written with the least significant byte first; a section is its bytes after their number
as a 32-bit word; text is a section of UTF-8.

A `ByteReader` takes what it reads off the front of its input.  One that fails takes what it looked
at: a short word and a short section take all that was left.
-/

namespace ParticleSim

/-- Bytes of a stream or of a record. -/
abbrev Bytes := List UInt8

namespace Bytes

/-- The `width` bytes of a number, least significant first. -/
def ofNat : (width : Nat) → Nat → Bytes
  | 0, _ => []
  | width + 1, n => .ofNat n :: ofNat width (n / 256)

/-- The number that bytes stand for, least significant first. -/
def toNat : Bytes → Nat
  | [] => 0
  | b :: bs => b.toNat + 256 * toNat bs

def ofU32 (v : UInt32) : Bytes := ofNat 4 v.toNat

def ofU64 (v : UInt64) : Bytes := ofNat 8 v.toNat

/-- A section whose length prefix wraps at `2 ^ 32`. -/
def sized (bytes : Bytes) : Bytes := ofU32 (.ofNat bytes.length) ++ bytes

end Bytes

/-- Reads from the front of its input, and fails with an error of type `ε`. -/
abbrev ByteReader (ε : Type) := EStateM ε Bytes

namespace ByteReader

/-- The next `n` bytes. -/
def exactly (n : Nat) : ByteReader FormatFault Bytes := fun input =>
  let (taken, rest) := input.splitAt n
  if taken.length = n then .ok taken rest else .error .truncated rest

def u8 : ByteReader FormatFault UInt8 := return .ofNat (← exactly 1).toNat

def u32 : ByteReader FormatFault UInt32 := return .ofNat (← exactly 4).toNat

def u64 : ByteReader FormatFault UInt64 := return .ofNat (← exactly 8).toNat

/-- The bytes of a section. -/
def sized : ByteReader FormatFault Bytes := do
  let length ← u32
  fun input =>
    let (taken, rest) := input.splitAt length.toNat
    if taken.length = length.toNat then .ok taken rest
    else .error (.shortSection length.toNat taken.length) rest

/-- The text of a section. -/
def text : ByteReader FormatFault String := do
  match Text.decode (← sized) with
  | .ok s => return s
  | .error fault => throw (.badText fault)

end ByteReader

end ParticleSim
