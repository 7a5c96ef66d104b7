/-!
# Text — UTF-8

Text travels as UTF-8.  `encode` writes it, `decode` reads it back (`decode_encode`) and refuses
every other octet sequence (`encode_eq_of_decode`) with a `Utf8Fault`: where the valid part ends
and, unless the octets merely stop inside a character, how many octets make up the part that no
character starts with.
-/

namespace ParticleSim.Text

/-- Why octets are not UTF-8. -/
structure Utf8Fault where
  /-- How many octets before the fault are whole characters. -/
  validUpTo : Nat
  /-- Length of the invalid part; `none` when the input ends inside a character that more octets
  could complete. -/
  invalid : Option Nat
deriving DecidableEq

def Utf8Fault.message (fault : Utf8Fault) : String :=
  match fault.invalid with
  | some n => s!"invalid utf-8 sequence of {n} bytes from index {fault.validUpTo}"
  | none => s!"incomplete utf-8 byte sequence from index {fault.validUpTo}"

/-- How many octets follow a first octet, and the least and greatest value of the second. -/
def utf8Shape (first : UInt8) : Option (Nat × UInt8 × UInt8) :=
  if first ≤ 0x7F then some (0, 0x80, 0xBF)
  else if 0xC2 ≤ first ∧ first ≤ 0xDF then some (1, 0x80, 0xBF)
  else if first = 0xE0 then some (2, 0xA0, 0xBF)
  else if first = 0xED then some (2, 0x80, 0x9F)
  else if 0xE1 ≤ first ∧ first ≤ 0xEF then some (2, 0x80, 0xBF)
  else if first = 0xF0 then some (3, 0x90, 0xBF)
  else if first = 0xF4 then some (3, 0x80, 0x8F)
  else if 0xF1 ≤ first ∧ first ≤ 0xF3 then some (3, 0x80, 0xBF)
  else none

/-- What stands after the first octet of a character. -/
inductive Utf8Tail where
  | complete
  | cut
  /-- The first `good` octets of the character belong together, the next does not. -/
  | broken (good : Nat)

/-- Check `n` more octets, the first of them between `low` and `high`, after `good` octets. -/
def utf8Tail : (n : Nat) → (low high : UInt8) → (good : Nat) → List UInt8 → Utf8Tail
  | 0, _, _, _, _ => .complete
  | _ + 1, _, _, _, [] => .cut
  | n + 1, low, high, good, b :: bs =>
    if low ≤ b ∧ b ≤ high then utf8Tail n 0x80 0xBF (good + 1) bs else .broken good

/-- The first fault of octets that start `start` octets into the input. -/
def utf8Fault (start : Nat) : List UInt8 → Utf8Fault
  | [] => ⟨start, none⟩
  | b :: bs =>
    match utf8Shape b with
    | none => ⟨start, some 1⟩
    | some (n, low, high) =>
      match utf8Tail n low high 1 bs with
      | .complete => utf8Fault (start + 1 + n) (bs.drop n)
      | .cut => ⟨start, none⟩
      | .broken good => ⟨start, some good⟩
termination_by bs => bs.length
decreasing_by simp only [List.length_drop, List.length_cons]; omega

/-- The octets of a text. -/
def encode (s : String) : List UInt8 := s.toByteArray.data.toList

/-- The text of octets. -/
def decode (octets : List UInt8) : Except Utf8Fault String :=
  match String.fromUTF8? ⟨octets.toArray⟩ with
  | some s => .ok s
  | none => .error (utf8Fault 0 octets)

/-- What is written is read back. -/
theorem decode_encode (s : String) : decode (encode s) = .ok s := by
  have h : String.fromUTF8? ⟨(encode s).toArray⟩ = some s := by
    rw [encode, Array.toArray_toList]
    exact dif_pos s.isValidUTF8
  rw [decode, h]

/-- Only what is written is read. -/
theorem encode_eq_of_decode {octets : List UInt8} {s : String} (h : decode octets = .ok s) :
    encode s = octets := by
  rw [decode, String.fromUTF8?] at h
  split at h
  · next heq =>
    cases h
    split at heq
    · cases heq; exact List.toList_toArray
    · cases heq
  · cases h

end ParticleSim.Text
