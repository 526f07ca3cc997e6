import DocOutline.Text.Basic

set_option autoImplicit false

/-! # Paths

A path is a text whose parts are divided by slashes. The library looks at a path in two ways only:
it asks for the directory a path lies in, and it appends a file name to a directory. Both work on
the text alone, so `..` is a part like any other, while empty parts and the part `.` count only
where a path starts with them. -/

namespace DocOutline

open Text

/-- A path as it is given. -/
abbrev Path := String

namespace Path

/-- Does a part of a path stand for no step at all? -/
def isIdle (part : Text) : Bool := part.isEmpty || part == ['.']

/-- The start of a path that belongs to no part, and the rest: a slash for the root, or the dot of
    a path that starts at the working directory. -/
def splitLead (t : Text) : Text × Text :=
  match t with
  | '/' :: rest => (['/'], rest)
  | ['.'] => (['.'], [])
  | '.' :: '/' :: rest => (['.'], '/' :: rest)
  | _ => ([], t)

/-- The directory that a path lies in: the path up to its last part. The root and the empty path
    lie in none, and a path of one part lies in the directory with the empty path. -/
def parent? (p : Path) : Option Path :=
  let (lead, body) := splitLead p.toList
  match (splitAt '/' body).reverse.dropWhile isIdle with
  | [] => if lead = ['.'] then some "" else none
  | _ :: before =>
    let parts := (before.dropWhile isIdle).reverse
    some (String.ofList (lead ++ List.intercalate ['/'] parts))

/-- The path of a file in a directory. -/
def join (dir : Path) (name : String) : Path :=
  if dir.isEmpty || dir.toList.getLast? == some '/' then dir ++ name else dir ++ "/" ++ name

end Path

end DocOutline
