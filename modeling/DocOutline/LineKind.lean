import DocOutline.Settings.Basic
import DocOutline.Text.Space
import DocOutline.Text.Word

set_option autoImplicit false

/-! # What a line is

A line is a heading, the delimiter of a code block, or other content.

* A *heading* is a run of `=` or of `#`, then a blank. Its level is the length of the run. A run
  that the rules do not admit makes the line other content; it is not tried as a delimiter.
* A *delimiter* is, up to trailing white space, four or more `-`, four or more `.`, or three or
  more backticks that an info string may follow. It opens a block that ends at the next line made
  of the same character alone and at least as wide: this is what `Fence` records. -/

namespace DocOutline

open Text

/-! ## Fences -/

/-- The backtick. -/
def backtick : Char := Char.ofNat 0x60

/-- The opening delimiter of a code block: its character and the width of its run. -/
structure Fence where
  marker : Char
  width : Nat
  deriving DecidableEq, Repr, Inhabited

namespace Fence

/-- Shortest run that opens a block, for the characters that can open one. -/
def minWidth? (marker : Char) : Option Nat :=
  if marker = '-' ∨ marker = '.' then some 4
  else if marker = backtick then some 3
  else none

/-- Characters of an info string, which may only follow backticks. -/
def isInfo (c : Char) : Bool := isWord c || c == '+' || c == '-'

/-- Can `info` follow a run of `marker`? -/
def admitsInfo (marker : Char) (info : Text) : Bool :=
  info.isEmpty || (marker == backtick && info.all isInfo)

/-- The fence that a line opens, if it is a delimiter. -/
def ofLine? (line : Text) : Option Fence :=
  match trimEnd line with
  | [] => none
  | marker :: rest =>
    let width := run marker (marker :: rest)
    match minWidth? marker with
    | none => none
    | some least =>
      if least ≤ width ∧ admitsInfo marker ((marker :: rest).drop width) = true then
        some ⟨marker, width⟩
      else none

/-- A line closes a block if, up to trailing white space, it is a run of the block's character at
    least as wide as the one that opened it. -/
def closedBy (f : Fence) (line : Text) : Bool :=
  let body := trimEnd line
  !body.isEmpty && body.all (· == f.marker) && f.width ≤ body.length

end Fence

/-! ## Headings -/

/-- Marker and length of the run of markers that a line starts with, if it is `=` or `#` and a
    blank follows it. -/
def headingMark? (line : Text) : Option (Char × Nat) :=
  match line with
  | [] => none
  | marker :: _ =>
    if marker = '=' ∨ marker = '#' then
      match line.drop (run marker line) with
      | [] => none
      | c :: _ => if c = ' ' ∨ c = '\t' then some (marker, run marker line) else none
    else none

/-- Do the rules admit a heading with this marker and level? -/
def HeadingRules.admits (rules : HeadingRules) (marker : Char) (level : Nat) : Bool :=
  (marker == '=' || rules.markdown) && level ≤ rules.maxLevel

/-! ## Lines -/

/-- What a line is. -/
inductive LineKind where
  | header (level : Nat)
  | delimiter (fence : Fence)
  | other
  deriving DecidableEq, Repr, Inhabited

/-- Says what a line is. The line is taken as it stands, whatever characters it holds. -/
def HeadingRules.classify (rules : HeadingRules) (line : Text) : LineKind :=
  match headingMark? line with
  | some (marker, level) => if rules.admits marker level then .header level else .other
  | none =>
    match Fence.ofLine? line with
    | some fence => .delimiter fence
    | none => .other

end DocOutline
