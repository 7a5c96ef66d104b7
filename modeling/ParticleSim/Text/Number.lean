/-!
# Text — Integers on a command line

A number is one or more ASCII digits, with an optional sign in front: `+` for every kind of number,
`-` only for signed ones.  A number out of the range of its width is none.
-/

namespace ParticleSim.Text

/-- The value of one or more ASCII digits. -/
def digits? (cs : List Char) : Option Nat :=
  if cs ≠ [] ∧ cs.all Char.isDigit then
    some (cs.foldl (fun n c => 10 * n + (c.toNat - '0'.toNat)) 0)
  else none

/-- An unsigned number below `2 ^ 64`. -/
def unsigned? (s : String) : Option UInt64 := do
  let n ← match s.toList with
    | '+' :: cs => digits? cs
    | cs => digits? cs
  if n < UInt64.size then some (.ofNat n) else none

/-- A signed number from `-2 ^ 63` to below `2 ^ 63`. -/
def signed? (s : String) : Option Int64 := do
  let i : Int ← match s.toList with
    | '+' :: cs => (digits? cs).map Int.ofNat
    | '-' :: cs => (digits? cs).map fun n => -Int.ofNat n
    | cs => (digits? cs).map Int.ofNat
  if Int64.minValue.toInt ≤ i ∧ i ≤ Int64.maxValue.toInt then some (.ofInt i) else none

end ParticleSim.Text
