import DocOutline.Path

set_option autoImplicit false

/-! # Files

All that the commands know of the file system is what stands at a path. Reading a file as text may
fail in a few ways, each with the message that the system has for it. -/

namespace DocOutline

/-- What stands at a path. -/
inductive Entry where
  | file (bytes : ByteArray)
  /-- A file that is there and may not be read. -/
  | lockedFile
  | directory
  deriving Inhabited

/-- Why nothing stands at a path. -/
inductive Absence where
  | notFound
  /-- The path goes on after a file. -/
  | notDirectory
  deriving DecidableEq, Repr, Inhabited

/-- What stands at each path. -/
abbrev Files := Path → Except Absence Entry

/-- Why a file cannot be read as text. -/
inductive ReadError where
  | absent (why : Absence)
  | isDirectory
  | denied
  | notUtf8
  deriving DecidableEq, Repr, Inhabited

def ReadError.message : ReadError → String
  | .absent .notFound => "No such file or directory (os error 2)"
  | .absent .notDirectory => "Not a directory (os error 20)"
  | .isDirectory => "Is a directory (os error 21)"
  | .denied => "Permission denied (os error 13)"
  | .notUtf8 => "stream did not contain valid UTF-8"

namespace Files

/-- Does anything stand at the path? -/
def has (files : Files) (p : Path) : Bool :=
  match files p with
  | .ok _ => true
  | .error _ => false

/-- Does a file stand at the path? -/
def hasFile (files : Files) (p : Path) : Bool :=
  match files p with
  | .ok (.file _) => true
  | .ok .lockedFile => true
  | _ => false

/-- The text of the file at a path. -/
def readText (files : Files) (p : Path) : Except ReadError Text :=
  match files p with
  | .error why => .error (.absent why)
  | .ok .directory => .error .isDirectory
  | .ok .lockedFile => .error .denied
  | .ok (.file bytes) =>
    match String.fromUTF8? bytes with
    | some s => .ok s.toList
    | none => .error .notUtf8

end Files

end DocOutline
