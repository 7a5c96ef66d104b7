import ParticleSim.Checkpoint.Bytes
import ParticleSim.FileSystem.Path
import ParticleSim.OrderedMap

/-!
# Files — Files and directories

The part of a file system that checkpoints touch: files and directories by their places, where a
place is the list of the names from the root down.

An operation follows its path first, up to the last name (`FileSystem.locate`): a directory on the
way that is missing, or that is a file, is the operation's fault.  Then it looks at what has the
last name (`FileSystem.lookup`).
-/

namespace ParticleSim

/-- Names from the root down; the root is the place without names. -/
abbrev Place := List String

/-- What stands at a place. -/
inductive FileEntry where
  | file (content : Bytes)
  | directory
deriving DecidableEq

/-- Files and directories by place; the root is a directory without an entry. -/
structure FileSystem where
  entries : OrderedMap Place FileEntry

/-- Where a path leads. -/
inductive Target where
  /-- To a directory that the path does not name last: it stays, goes up or has no steps. -/
  | directory
  /-- To a name within a directory, which something may have or not; `slash` if it has to be a
  directory. -/
  | entry (place : Place) (name : String) (slash : Bool)
deriving DecidableEq

namespace FileSystem

def empty : FileSystem := ⟨.empty⟩

instance : Inhabited FileSystem := ⟨empty⟩

/-- A file system in which there is one directory. -/
def single (directory : String) : FileSystem := ⟨OrderedMap.empty.insert [directory] .directory⟩

/-- What has a name within a directory. -/
def lookup (fs : FileSystem) (place : Place) (name : String) : Except IoFault (Option FileEntry) :=
  if Path.nameLimit < (Text.encode name).length then .error .nameTooLong
  else .ok (fs.entries.find? (place ++ [name]))

/-- Take one step on the way to something else. -/
def enter (fs : FileSystem) (place : Place) : PathStep → Except IoFault Place
  | .stay => .ok place
  | .up => .ok place.dropLast
  | .name name => do
    match ← fs.lookup place name with
    | none => .error .noSuchFile
    | some (.file _) => .error .notDirectory
    | some .directory => .ok (place ++ [name])

/-- Follow the steps of a path from a directory on. -/
def follow (fs : FileSystem) (slash : Bool) (place : Place) : List PathStep → Except IoFault Target
  | [] => .ok .directory
  | [.name name] => .ok (.entry place name slash)
  | step :: steps => do fs.follow slash (← fs.enter place step) steps

/-- Where a path leads. -/
def locate (fs : FileSystem) (path : String) : Except IoFault Target := do
  let p ← Path.ofText path
  fs.follow p.slash [] p.steps

/-- Open a file for writing: what it held is gone. -/
def create (fs : FileSystem) (path : String) : Except IoFault FileSystem := do
  match ← fs.locate path with
  | .directory | .entry _ _ true => .error .isDirectory
  | .entry place name false =>
    match ← fs.lookup place name with
    | some .directory => .error .isDirectory
    | _ => .ok ⟨fs.entries.insert (place ++ [name]) (.file [])⟩

/-- Put the content of a file in place. -/
def write (fs : FileSystem) (path : String) (content : Bytes) : FileSystem :=
  match fs.locate path with
  | .ok (.entry place name _) =>
    ⟨fs.entries.modify (place ++ [name]) fun
      | .file _ => .file content
      | .directory => .directory⟩
  | _ => fs

/-- The place and the content of the file that a path leads to. -/
def file (fs : FileSystem) (path : String) : Except IoFault (Place × Bytes) := do
  match ← fs.locate path with
  | .directory => .error .isDirectory
  | .entry place name slash =>
    match ← fs.lookup place name with
    | none => .error .noSuchFile
    | some .directory => .error .isDirectory
    | some (.file content) =>
      if slash then .error .notDirectory else .ok (place ++ [name], content)

/-- The content of a file. -/
def read (fs : FileSystem) (path : String) : Except IoFault Bytes := do
  return (← fs.file path).2

/-- Delete a file. -/
def remove (fs : FileSystem) (path : String) : Except IoFault FileSystem := do
  return ⟨fs.entries.erase (← fs.file path).1⟩

/-- Move a file to a path where there is no directory; a file that was there is gone. -/
def rename (fs : FileSystem) (source target : String) : Except IoFault FileSystem := do
  let (here, content) ← fs.file source
  match ← fs.locate target with
  | .directory => .error .busy
  | .entry place name slash =>
    let replaced ← fs.lookup place name
    if slash then .error .notDirectory
    else if replaced = some .directory then .error .isDirectory
    else if place ++ [name] = here then .ok fs
    else .ok ⟨(fs.entries.erase here).insert (place ++ [name]) (.file content)⟩

/-- Make a directory, unless it exists. -/
def makeDirectory (fs : FileSystem) (path : String) : Except IoFault FileSystem := do
  match ← fs.locate path with
  | .directory => .ok fs
  | .entry place name _ =>
    match ← fs.lookup place name with
    | some .directory => .ok fs
    | some (.file _) => .error .notDirectory
    | none => .ok ⟨fs.entries.insert (place ++ [name]) .directory⟩

/-- Make directories one after the other, up to the first that cannot be made. -/
def makeEach (fs : FileSystem) : List String → FileSystem
  | [] => fs
  | path :: paths =>
    match fs.makeDirectory path with
    | .ok fs => fs.makeEach paths
    | .error _ => fs

/-- Make a directory and those above it, as far as that can be done; nothing for a text that is no
path. -/
def makeDirectories (fs : FileSystem) (path : String) : FileSystem :=
  match Path.ofText path with
  | .ok _ => fs.makeEach (Path.above path ++ [path])
  | .error _ => fs

/-- What a directory holds, in the order of the octets of the names. -/
def list (fs : FileSystem) (place : Place) : List (String × FileEntry) :=
  (fs.entries.entries.filterMap fun e =>
    if e.1.dropLast = place then e.1.getLast?.map (·, e.2) else none).mergeSort fun a b =>
      Text.encode a.1 ≤ Text.encode b.1

end FileSystem

end ParticleSim
