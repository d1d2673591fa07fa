import LineBasic.Files
import LineBasic.SortedMap

/-!
# A disk in memory

A `Disk` holds files and directories by their paths. A name is looked up part by part, from the top
of the disk or, if it begins with a slash, from the root: the parts before the last have to be
directories, `.` and empty parts stay where they are, and `..` goes up. Of the world around the disk
nothing is known but that the directories above the top exist.

A name means a directory if its last part is `.` or `..`, or if it ends in a slash. A file cannot be
written to such a name, whatever stands there; reading looks at what stands there first.
-/

namespace LineBasic

/-- What stands under a name. -/
inductive Node
  | file (bytes : ByteArray)
  | directory

/-- Files and directories, by the parts of their paths joined with slashes. -/
abbrev Disk := SortedMap String Node

namespace Disk

/-- How many bytes a part of a name may have. -/
def maxPartLength : Nat := 255

/-- The path with some parts. The paths above the top begin with `..`, and those from the root with
an empty part. -/
def path (parts : List String) : String := String.intercalate "/" parts

/-- The parts of the directory that a name is looked up from. -/
def start (name : String) : List String := if name.toList.head? = some '/' then [""] else []

/-- The directory above a directory. The root is above itself. -/
def parent (directory : List String) : List String :=
  match directory.getLast? with
  | none | some ".." => directory ++ [".."]
  | some "" => directory
  | some _ => directory.dropLast

/-- Whether a part of a name leads to a directory that is there in any case. -/
def isDots (part : String) : Bool := part = "." || part = ".."

/-- What stands under one part of a name in a directory. -/
def lookUp (disk : Disk) (directory : List String) (part : String) :
    Except FileFault (Option Node) :=
  if isDots part then .ok (some .directory)
  else if maxPartLength < part.utf8ByteSize then .error .nameTooLong
  else .ok (disk.find? (path (directory ++ [part])))

/-- The directory that one part of a name leads to. -/
def enter (directory : List String) (part : String) : List String :=
  if part = "." then directory else if part = ".." then parent directory else directory ++ [part]

/-- Goes from a directory down some parts of a name, all of which have to be directories. -/
def descend (disk : Disk) (directory : List String) :
    List String → Except FileFault (List String)
  | [] => .ok directory
  | part :: rest =>
    match lookUp disk directory part with
    | .ok (some .directory) => descend disk (enter directory part) rest
    | .ok (some (.file _)) => .error .notDirectory
    | .ok none => .error .missing
    | .error fault => .error fault

/-- A name, looked up as far as its last part, and whether it ends in a slash. -/
structure Place where
  directory : List String
  last : String
  slash : Bool

/-- Looks up all of a name but what stands under its last part. -/
def locate (disk : Disk) (name : String) : Except FileFault Place :=
  if name.toList.contains '\x00' then .error .nameWithNul
  else
    let parts := (name.splitOn "/").filter (· ≠ "")
    match descend disk (start name) parts.dropLast with
    | .ok directory =>
      .ok ⟨directory, parts.getLast?.getD ".", name.toList.getLast? = some '/'⟩
    | .error fault => .error fault

/-- The bytes of a file. -/
def read (disk : Disk) (name : String) : Except FileFault ByteArray :=
  match locate disk name with
  | .error fault => .error fault
  | .ok place =>
    match lookUp disk place.directory place.last with
    | .ok (some (.file bytes)) => if place.slash then .error .notDirectory else .ok bytes
    | .ok (some .directory) => .error .isDirectory
    | .ok none => .error .missing
    | .error fault => .error fault

/-- The disk after a text has been written to a file. -/
def write (disk : Disk) (name text : String) : Except FileFault Disk :=
  match locate disk name with
  | .error fault => .error fault
  | .ok place =>
    if place.slash then .error .isDirectory
    else
      match lookUp disk place.directory place.last with
      | .ok (some .directory) => .error .isDirectory
      | .ok _ => .ok (disk.insert (path (place.directory ++ [place.last])) (.file text.toUTF8))
      | .error fault => .error fault

/-- Whether a path leads to something below the top. -/
def isBelowTop (path : String) : Bool :=
  let first := (path.splitOn "/").head?
  first ≠ some ".." && first ≠ some ""

/-- The files below the top, by their paths. -/
def files (disk : Disk) : List (String × ByteArray) :=
  disk.toList.filterMap fun entry =>
    match entry.2 with
    | .file bytes => if isBelowTop entry.1 then some (entry.1, bytes) else none
    | .directory => none

end Disk

/-- The files of a state that has a disk. -/
def Files.onDisk {σ : Type} {m : Type → Type} [Monad m] [MonadStateOf σ m] (disk : σ → Disk)
    (setDisk : Disk → σ → σ) : Files m where
  read name := do return (disk (← getThe σ)).read name
  write name text := do
    match (disk (← getThe σ)).write name text with
    | .ok changed =>
      modifyThe σ (setDisk changed)
      return .ok ()
    | .error fault => return .error fault

end LineBasic
