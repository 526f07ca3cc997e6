import DocOutline.Text.Basic

set_option autoImplicit false

/-! # Line table

A line table is made once for a text and then turns byte offsets into lines and columns, both
counted from zero and columns in bytes. It holds the offset at which each line starts, in
increasing order, and a position is looked up by bisection. Offsets past the end count as the
end. -/

namespace DocOutline

open Text

/-- Where each line of a text starts. -/
structure LineTable where
  /-- Offset of the first byte of every line; there is always a first line. -/
  starts : Array Nat
  /-- Number of bytes of the text. -/
  length : Nat
  deriving Repr, Inhabited

/-- A line and a column, both counted from zero. -/
structure Position where
  line : Nat
  column : Nat
  deriving DecidableEq, Repr, Inhabited

namespace LineTable

/-- Offsets just after the line feeds of a text that starts at offset `pos`. -/
def breaksFrom (pos : Nat) : Text → List Nat
  | [] => []
  | c :: t =>
    let next := pos + c.utf8Size
    if c = '\n' then next :: breaksFrom next t else breaksFrom next t

/-- The line table of a text. -/
def ofText (t : Text) : LineTable := ⟨(0 :: breaksFrom 0 t).toArray, byteLength t⟩

def lineCount (table : LineTable) : Nat := table.starts.size

/-- First index in `lo..hi` whose entry lies above `x`, or `hi` if there is none, in an array of
    increasing entries. -/
def upperBound (a : Array Nat) (x lo hi : Nat) : Nat :=
  if lo < hi then
    let mid := lo + (hi - lo) / 2
    if a.getD mid 0 ≤ x then upperBound a x (mid + 1) hi else upperBound a x lo mid
  else lo
termination_by hi - lo

/-- The line and column of an offset: the line is the last one that starts at or before it. -/
def position (table : LineTable) (offset : Nat) : Position :=
  let clamped := min offset table.length
  let line := upperBound table.starts clamped 0 table.starts.size - 1
  ⟨line, clamped - table.starts.getD line 0⟩

end LineTable

end DocOutline
