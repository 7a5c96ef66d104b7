import ParticleSim.Checkpoint.Error

/-!
# Files — Paths

A path is a text of names with slashes between them, which is followed from the root down.  Each
name asks for a step into what is so named; one dot asks to stay, two dots ask to go up
(`Path.step?`).  How many slashes stand between two names does not matter, but a slash at the end
says that the path is a directory's.

A text with a NUL or with too many octets is no path (`Path.ofText`).
-/

namespace ParticleSim

/-- One step of a path. -/
inductive PathStep where
  | stay
  | up
  | name (text : String)
deriving DecidableEq

/-- A path as it is followed. -/
structure Path where
  steps : List PathStep
  /-- Whether a slash stands at the end. -/
  slash : Bool
deriving DecidableEq

namespace Path

/-- How many octets a path can have. -/
def limit : Nat := 4095

/-- How many octets a name can have. -/
def nameLimit : Nat := 255

/-- What stands between the slashes of a text that goes on from `part`. -/
def parts (part : List Char) : List Char → List String
  | [] => [.ofList part]
  | '/' :: cs => .ofList part :: parts [] cs
  | c :: cs => parts (part ++ [c]) cs

/-- The step that a part asks for; the empty one asks for none. -/
def step? : String → Option PathStep
  | "" => none
  | "." => some .stay
  | ".." => some .up
  | part => some (.name part)

/-- The path that a text stands for. -/
def ofText (text : String) : Except IoFault Path :=
  if text.toList.contains '\x00' then .error .nulInName
  else if limit < (Text.encode text).length then .error .nameTooLong
  else .ok ⟨(parts [] text.toList).filterMap step?, text.toList.getLast? = some '/'⟩

/-- A path that starts at a directory, unless it starts at the root by itself. -/
def join (directory path : String) : String :=
  if path.toList.head? = some '/' then path else directory ++ "/" ++ path

/-- The paths of the directories that have to be there before the last name of a path, from the root
down. -/
def above (path : String) : List String :=
  let names := (parts [] path.toList).filter fun part => part ≠ "" ∧ part ≠ "."
  (List.range names.length).tail.map fun n => "/" ++ "/".intercalate (names.take n)

end Path

end ParticleSim
