import DocOutline.Section.Basic

set_option autoImplicit false

/-! # Asking what stands at an offset

Both queries go down from the roots and take, at every level, the first section whose extent holds
the offset. One keeps the section it has come to, the other the titles it has passed. -/

namespace DocOutline

mutual
/-- The section the search ends at, if this one holds the offset. -/
def Section.findAt (offset : Nat) : Section → Option Section
  | ⟨name, level, start, stop, children⟩ =>
    if Section.contains ⟨name, level, start, stop, children⟩ offset then
      match Forest.findAt offset children with
      | some inner => some inner
      | none => some ⟨name, level, start, stop, children⟩
    else none

/-- The innermost section at an offset. -/
def Forest.findAt (offset : Nat) : List Section → Option Section
  | [] => none
  | s :: rest =>
    match s.findAt offset with
    | some found => some found
    | none => Forest.findAt offset rest
end

mutual
/-- The titles from this section down to the innermost one at an offset. -/
def Section.pathAt (offset : Nat) : Section → List Text
  | ⟨name, _, _, _, children⟩ => name :: Forest.pathAt offset children

/-- The titles from a root down to the innermost section at an offset. -/
def Forest.pathAt (offset : Nat) : List Section → List Text
  | [] => []
  | s :: rest => if s.contains offset then s.pathAt offset else Forest.pathAt offset rest
end

end DocOutline
