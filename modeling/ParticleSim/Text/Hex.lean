/-!
# Text — Octets as hexadecimal digits

Two digits for each octet, the high one first; letters are small.
-/

namespace ParticleSim.Text

/-- The digit of a number below 16. -/
def hexDigit (n : Nat) : Char := if n < 10 then .ofNat (48 + n) else .ofNat (87 + n)

/-- The number of a digit. -/
def hexValue (c : Char) : Nat :=
  if c.isDigit then c.toNat - '0'.toNat else (c.toNat + 10) - 'a'.toNat

/-- The digits of octets. -/
def hex (octets : List UInt8) : String :=
  .ofList (octets.flatMap fun b => [hexDigit (b.toNat / 16), hexDigit (b.toNat % 16)])

/-- The octets of digits; a digit without a second one is dropped. -/
def unhex : List Char → List UInt8
  | a :: b :: cs => .ofNat (16 * hexValue a + hexValue b) :: unhex cs
  | _ => []

end ParticleSim.Text
