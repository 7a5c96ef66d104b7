import ParticleSim.Text.GraphemeExtend
import ParticleSim.Text.Ignorable
import ParticleSim.Text.Unprintable

/-!
# Text — Quoted text

A text between double quotes, so that every character can be told from its surroundings: the quote,
the backslash and four controls have an escape of two characters; every other character that is not
shown by itself (`isShown`) stands as its hexadecimal number in braces.
-/

namespace ParticleSim.Text

/-- Whether a character attaches to the one before it and yet takes room of its own: the two sound
marks of halfwidth Katakana. -/
def isSoundMark (c : Char) : Bool := c = '\uff9e' || c = '\uff9f'

/-- Whether a character can be seen wherever it stands. -/
def isShown (c : Char) : Bool :=
  isPrintable c && !isIgnorable c && (!extendsGrapheme c || isSoundMark c)

/-- The hexadecimal number of a character, in braces. -/
def hexEscape (c : Char) : List Char :=
  ['\x5c', 'u', '\x7b'] ++ Nat.toDigits 16 c.toNat ++ ['\x7d']

/-- A character as it stands between the quotes. -/
def quotedChar (c : Char) : List Char :=
  match c with
  | '\x00' => ['\x5c', '0']
  | '\t' => ['\x5c', 't']
  | '\r' => ['\x5c', 'r']
  | '\n' => ['\x5c', 'n']
  | '\x22' => ['\x5c', '\x22']
  | '\x5c' => ['\x5c', '\x5c']
  | c => if isShown c then [c] else hexEscape c

/-- A text between double quotes. -/
def quoted (s : String) : String := .ofList ('\x22' :: s.toList.flatMap quotedChar ++ ['\x22'])

/-- Texts between double quotes, in brackets. -/
def quotedList (texts : List String) : String := "[" ++ ", ".intercalate (texts.map quoted) ++ "]"

end ParticleSim.Text
