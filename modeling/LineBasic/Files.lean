import LineBasic.Error

/-!
# Files

What a session needs of a file system: to read a file and to write one, each at a stroke.
-/

namespace LineBasic

/-- Why a file could not be read or written. -/
inductive FileFault
  | missing
  | notDirectory
  | isDirectory
  | nameTooLong
  | nameWithNul
  | other (reason : String)
  deriving DecidableEq, Repr

/-- A fault in the words of the system. -/
def FileFault.reason : FileFault → String
  | missing => "No such file or directory (os error 2)"
  | notDirectory => "Not a directory (os error 20)"
  | isDirectory => "Is a directory (os error 21)"
  | nameTooLong => "File name too long (os error 36)"
  | nameWithNul => "file name contained an unexpected NUL byte"
  | other reason => reason

/-- Reads and writes files. -/
structure Files (m : Type → Type) where
  /-- The bytes of a file. -/
  read : String → m (Except FileFault ByteArray)
  /-- Writes a text to a file, which is created if there is none. -/
  write : String → String → m (Except FileFault Unit)

namespace Files

variable {m : Type → Type} [Monad m]

/-- The text in a file. -/
def load (files : Files m) (name : String) : m (Except Error String) := do
  match ← files.read name with
  | .ok bytes =>
    match String.fromUTF8? bytes with
    | some text => return .ok text
    | none => return .error (.io "stream did not contain valid UTF-8")
  | .error .missing => return .error (.fileNotFound name)
  | .error fault => return .error (.io fault.reason)

/-- Puts a text in a file. -/
def save (files : Files m) (name text : String) : m (Except Error Unit) := do
  match ← files.write name text with
  | .ok () => return .ok ()
  | .error fault => return .error (.io fault.reason)

end Files

end LineBasic
