import DocOutline.Files.Basic

set_option autoImplicit false

/-! # File trees

A working directory with everything below it, and how a path is followed in it: part by part, where
every part but the first needs a directory to start from. Above the working directory there are
directories about which nothing else is known. -/

namespace DocOutline

open Text

/-- A file, or a directory with its entries. -/
inductive FileTree where
  | file (bytes : ByteArray)
  | directory (entries : List (Text × FileTree))
  deriving Inhabited

/-- The entries of a directory. -/
abbrev Directory := List (Text × FileTree)

namespace Directory

/-- Sets an entry. -/
def set (d : Directory) (name : Text) (tree : FileTree) : Directory :=
  d.filter (fun entry => entry.1 ≠ name) ++ [(name, tree)]

/-- The entries of the directory of this name; none if there is no such directory. -/
def entriesOf (d : Directory) (name : Text) : Directory :=
  match d.lookup name with
  | some (.directory inside) => inside
  | _ => []

/-- Adds a file, or a directory if no content is given, below directories that are made where they
    are missing. -/
def add (d : Directory) (content : Option ByteArray) : (parts : List Text) → Directory
  | [] => d
  | [name] =>
    match content with
    | some bytes => d.set name (.file bytes)
    | none => d.set name (.directory (d.entriesOf name))
  | name :: rest => d.set name (.directory (add (d.entriesOf name) content rest))

/-- Adds a file or directory at a relative path. -/
def addAt (d : Directory) (p : Path) (content : Option ByteArray) : Directory :=
  d.add content ((splitAt '/' p.toList).filter (!Path.isIdle ·))

end Directory

/-- Where a path has led: to a file; or to a directory, given with the directories around it up to
    the working directory, and by no directory at all if it is one above that. -/
inductive Spot where
  | file (bytes : ByteArray)
  | directory (nested : List Directory)
  deriving Inhabited

namespace Spot

/-- Follows one part of a path. -/
def step (spot : Spot) (part : Text) : Except Absence Spot :=
  match spot with
  | .file _ => .error .notDirectory
  | .directory nested =>
    if Path.isIdle part then .ok (.directory nested)
    else if part = ['.', '.'] then .ok (.directory nested.tail)
    else match nested with
      | [] => .error .notFound
      | here :: _ =>
        match here.lookup part with
        | none => .error .notFound
        | some (.file bytes) => .ok (.file bytes)
        | some (.directory inside) => .ok (.directory (inside :: nested))

def entry : Spot → Entry
  | .file bytes => .file bytes
  | .directory _ => .directory

end Spot

/-- The files that a working directory gives. -/
def Directory.files (d : Directory) : Files := fun p =>
  match p.toList with
  | [] => .error .notFound
  | c :: rest =>
    let start := if c = '/' then .directory [] else .directory [d]
    ((splitAt '/' (c :: rest)).foldlM Spot.step start).map Spot.entry

end DocOutline
