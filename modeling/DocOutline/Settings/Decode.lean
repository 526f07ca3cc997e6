import DocOutline.Settings.Basic
import DocOutline.Toml.Document

set_option autoImplicit false

/-! # Settings from TOML

A settings file has two groups, `lexer` with `max_header_level` and `markdown_headings`, and
`output` with `format`, `show_offsets` and `max_depth`. What is missing takes its default, and
every other key is ignored, whatever it holds. A known key with a value of the wrong type or range
makes the whole file malformed; only a file that is well formed is checked for values that cannot
be honoured. -/

namespace DocOutline

open Toml

/-- Why a text gives no settings. -/
inductive SettingsError where
  /-- The text is no TOML, or a known key has a value of the wrong type or range. -/
  | malformed
  | invalid (e : SettingError)
  deriving DecidableEq, Repr

namespace Settings

/-! ## Single values -/

/-- An integer from 0 to 255. -/
def levelOf? : Value → Option Nat
  | .integer n => if 0 ≤ n ∧ n ≤ 255 then some n.toNat else none
  | _ => none

/-- An integer that is not negative. -/
def depthOf? : Value → Option Nat
  | .integer n => if 0 ≤ n then some n.toNat else none
  | _ => none

def flagOf? : Value → Option Bool
  | .boolean b => some b
  | _ => none

def formatNamed? (name : Text) : Option OutputFormat :=
  if name = "text".toList then some .text
  else if name = "json".toList then some .json
  else none

/-- A format is given by its name, or by a table with its name as the only key, whose value is an
    empty table or an empty array. -/
def formatOf? : Value → Option OutputFormat
  | .string name => formatNamed? name
  | .table [(name, .table [])] => formatNamed? name
  | .table [(name, .array [])] => formatNamed? name
  | _ => none

/-! ## Groups -/

/-- How the members of a group are found, by key and by place in the group. A group may be a table;
    or an array with its members in order, of which surplus ones are ignored; or a date, which is
    taken for a table without known keys. -/
def members? : Value → Option (String → Nat → Option Value)
  | .table entries => some fun key _ => Table.get? entries key
  | .array items => some fun _ place => items[place]?
  | .datetime _ => some fun _ _ => none
  | _ => none

/-- A member that may be missing. -/
def memberOr {α : Type} (default : α) (decode : Value → Option α) : Option Value → Option α
  | none => some default
  | some v => decode v

def headingsOf? (v : Value) : Option HeadingRules := do
  let get ← members? v
  let base : HeadingRules := {}
  return {
    maxLevel := ← memberOr base.maxLevel levelOf? (get "max_header_level" 0)
    markdown := ← memberOr base.markdown flagOf? (get "markdown_headings" 1) }

def outputOf? (v : Value) : Option OutputOptions := do
  let get ← members? v
  let base : OutputOptions := {}
  return {
    format := ← memberOr base.format formatOf? (get "format" 0)
    showOffsets := ← memberOr base.showOffsets flagOf? (get "show_offsets" 1)
    maxDepth := ← memberOr base.maxDepth depthOf? (get "max_depth" 2) }

/-! ## Files -/

/-- The settings that a TOML document gives, before they are checked. -/
def decode? (doc : Table) : Option Settings := do
  return {
    headings := ← memberOr {} headingsOf? (doc.get? "lexer")
    output := ← memberOr {} outputOf? (doc.get? "output") }

/-- The settings that a text gives. -/
def ofToml (t : Text) : Except SettingsError Settings :=
  match (parse? t).bind decode? with
  | none => .error .malformed
  | some s => s.check.mapError .invalid

end Settings

end DocOutline
