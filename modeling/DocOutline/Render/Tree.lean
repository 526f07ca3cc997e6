import DocOutline.LineTable
import DocOutline.Section.Walk

set_option autoImplicit false

/-! # The outline as an indented tree

One line per section: two blanks for every level of nesting, the title, and on request the level,
the extent and the position of the heading, with lines and columns counted from one. -/

namespace DocOutline

open Text

/-- How a title is shown; a section without one is shown as untitled. -/
def displayName (name : Text) : Text := if name.isEmpty then "(untitled)".toList else name

/-- Level, extent and position, as they follow the title. -/
def Section.details (table : LineTable) (s : Section) : Text :=
  let pos := table.position s.start
  " [level ".toList ++ ofNat s.level ++ "] ".toList ++ ofNat s.start ++ "..=".toList
    ++ ofNat s.stop ++ " (".toList ++ ofNat (pos.line + 1) ++ ":".toList
    ++ ofNat (pos.column + 1) ++ ")".toList

theorem Section.details_eq {table : LineTable} {s : Section} {pos : Position}
    (h : table.position s.start = pos) :
    s.details table = " [level ".toList ++ ofNat s.level ++ "] ".toList ++ ofNat s.start
      ++ "..=".toList ++ ofNat s.stop ++ " (".toList ++ ofNat (pos.line + 1) ++ ":".toList
      ++ ofNat (pos.column + 1) ++ ")".toList := by
  rw [← h]
  rfl

/-- The line of one section, with the line feed that ends it. -/
def Row.render (table : LineTable) (showOffsets : Bool) (row : Row) : Text :=
  List.replicate (2 * row.depth) ' ' ++ displayName row.node.name
    ++ (if showOffsets then row.node.details table else []) ++ ['\n']

/-- The outline of a text as an indented tree. -/
def Forest.renderTree (f : Forest) (text : Text) (showOffsets : Bool) : Text :=
  (Forest.walk f).flatMap (Row.render (LineTable.ofText text) showOffsets)

end DocOutline
