set_option autoImplicit false

/-! # Settings

What a user may choose: which lines count as headings, and how an outline is written. The values
here may be anything; `Settings.check` tells the ones that can be honoured from the rest. Flags
given with a command replace single values of settings that were read from a file. -/

namespace DocOutline

/-- Which lines count as headings. -/
structure HeadingRules where
  /-- The deepest level that counts; a longer run of markers is ordinary content. -/
  maxLevel : Nat := 6
  /-- Do runs of `#` count, beside runs of `=`? -/
  markdown : Bool := true
  deriving DecidableEq, Repr, Inhabited

/-- The two ways of writing an outline. -/
inductive OutputFormat where
  /-- An indented tree to be read. -/
  | text
  /-- A JSON array to be processed. -/
  | json
  deriving DecidableEq, Repr, Inhabited

/-- How an outline is written. -/
structure OutputOptions where
  format : OutputFormat := .text
  /-- Does the indented tree show levels, extents and positions? -/
  showOffsets : Bool := true
  /-- Number of levels of nesting that are written, with 0 for all of them. -/
  maxDepth : Nat := 0
  deriving DecidableEq, Repr, Inhabited

/-- Everything a settings file may set. -/
structure Settings where
  headings : HeadingRules := {}
  output : OutputOptions := {}
  deriving DecidableEq, Repr, Inhabited

/-- A setting that can be read and cannot be honoured. -/
inductive SettingError where
  /-- The deepest heading level lies outside the six levels there are. -/
  | levelOutOfRange (got : Nat)
  deriving DecidableEq, Repr

/-- The number of heading levels there are. -/
def deepestLevel : Nat := 6

def SettingError.message : SettingError → String
  | .levelOutOfRange got =>
    s!"Invalid setting `lexer.max_header_level`: must be between 1 and {deepestLevel}, got {got}"

/-- Refuses a deepest heading level of 0 or above `deepestLevel`. -/
def Settings.check (s : Settings) : Except SettingError Settings :=
  if s.headings.maxLevel = 0 ∨ deepestLevel < s.headings.maxLevel then
    .error (.levelOutOfRange s.headings.maxLevel)
  else .ok s

/-- Output options given with a command. -/
structure Flags where
  format : Option OutputFormat := none
  maxDepth : Option Nat := none
  noOffsets : Bool := false
  deriving DecidableEq, Repr, Inhabited

/-- A flag that is given wins over the setting; the heading rules have no flags. -/
def Settings.override (s : Settings) (flags : Flags) : Settings :=
  { s with
    output :=
      { format := flags.format.getD s.output.format
        showOffsets := if flags.noOffsets then false else s.output.showOffsets
        maxDepth := flags.maxDepth.getD s.output.maxDepth } }

end DocOutline
