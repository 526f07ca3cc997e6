import DocOutline.Document
import DocOutline.Section.Basic
import DocOutline.Section.Title

set_option autoImplicit false

/-! # Nesting headings

The headings of a document become its outline. A section holds every later section that is deeper
than its own heading, up to the first one that is not, and ends one byte before that one, or on the
last byte of the document.

The forest is built in one pass over the headings, with a stack of the sections that are still open.
A heading closes the open sections that are not shallower, from the innermost one on, and opens its
own section inside what is left. At the end of the document all are closed. Levels may be skipped
and the first heading need not be the shallowest. -/

namespace DocOutline

open Text

/-- A heading: its level, where it starts, and its title. -/
structure Heading where
  level : Nat
  start : Nat
  name : Text
  deriving DecidableEq, Repr, Inhabited

/-- The heading that a token stands for, if it is one. -/
def Token.heading? (text : Text) (t : Token) : Option Heading :=
  t.kind.level?.map fun level => ⟨level, t.start, title (t.text text)⟩

/-! ## Open sections -/

/-- A section that has been opened and not yet closed. -/
structure OpenSection where
  heading : Heading
  /-- The sections directly inside it that are closed, the last one first. -/
  inside : Forest := []
  deriving Repr, Inhabited

namespace OpenSection

def level (s : OpenSection) : Nat := s.heading.level

/-- Closes a section on the byte `stop`. -/
def close (stop : Nat) (s : OpenSection) : Section :=
  ⟨s.heading.name, s.heading.level, s.heading.start, stop, s.inside.reverse⟩

/-- Puts a closed section behind the ones that are inside already. -/
def add (closed : Section) (s : OpenSection) : OpenSection :=
  { s with inside := closed :: s.inside }

end OpenSection

/-! ## The pass -/

/-- A pass over headings under way. -/
structure Scan where
  /-- The open sections, the innermost one first. -/
  stack : List OpenSection := []
  /-- The roots that are closed, the last one first. -/
  roots : Forest := []
  deriving Repr, Inhabited

namespace Scan

/-- Closes open sections on the byte `stop` as long as the innermost one is not shallower than
    `level`. What is closed goes into the section around it, or to the roots if there is none. -/
def closeDown (level stop : Nat) (roots : Forest) : OpenSection → List OpenSection → Scan
  | top, [] =>
    if level ≤ top.level then ⟨[], top.close stop :: roots⟩ else ⟨[top], roots⟩
  | top, parent :: outer =>
    if level ≤ top.level then closeDown level stop roots (parent.add (top.close stop)) outer
    else ⟨top :: parent :: outer, roots⟩

/-- Closes the open sections that are not shallower than `level`. -/
def close (level stop : Nat) (scan : Scan) : Scan :=
  match scan.stack with
  | [] => scan
  | top :: outer => closeDown level stop scan.roots top outer

/-- Opens the section of a heading, once those are closed that cannot hold it. -/
def enter (scan : Scan) (h : Heading) : Scan :=
  let closed := scan.close h.level (h.start - 1)
  { closed with stack := ⟨h, []⟩ :: closed.stack }

/-- The roots when all sections are closed with a document of `length` bytes. -/
def finish (length : Nat) (scan : Scan) : Forest := (scan.close 0 (length - 1)).roots.reverse

end Scan

/-- The outline of the headings of a document of `length` bytes. -/
def Forest.scan (length : Nat) (headings : List Heading) : Forest :=
  (headings.foldl Scan.enter {}).finish length

/-! ## Documents -/

namespace Document

/-- The headings among the tokens, in the order of the tokens. -/
def headings (d : Document) : List Heading := d.tokens.filterMap (Token.heading? d.text)

/-- The outline of a document. Tokens that are no headings have no influence on it. -/
def outline (d : Document) : Forest := Forest.scan (byteLength d.text) d.headings

end Document

end DocOutline
