import DocOutline.Text.Space
import DocOutline.Text.Word

set_option autoImplicit false

/-! # Log records and filters

A record says that something happened, in some part of the program, and how much it matters. A
filter is a list of directives, each of which sets how much is shown of the parts whose names start
with its target; the directive with the longest such target decides, and of two with the same
target the later one. -/

namespace DocOutline.Log

open Text

/-! ## Levels -/

/-- How much is shown, from nothing to everything; also how much a record matters. -/
inductive Level where
  | off
  | error
  | warn
  | info
  | debug
  | trace
  deriving DecidableEq, Repr, Inhabited

namespace Level

/-- The number of a level, which increases with what it shows. -/
def rank : Level → Nat
  | .off => 0
  | .error => 1
  | .warn => 2
  | .info => 3
  | .debug => 4
  | .trace => 5

def name : Level → String
  | .off => "off"
  | .error => "error"
  | .warn => "warn"
  | .info => "info"
  | .debug => "debug"
  | .trace => "trace"

def all : List Level := [.off, .error, .warn, .info, .debug, .trace]

/-- The more verbose of two levels. -/
def max (a b : Level) : Level := if a.rank ≤ b.rank then b else a

/-- A level is given by its number, or by its name in any case. -/
def ofText? (t : Text) : Option Level :=
  match toWord? t with
  | some n => all.find? (·.rank == n)
  | none => all.find? fun level => level.name.toList == t.map Char.toLower

end Level

/-! ## Records -/

/-- Something that happened. -/
structure Record where
  level : Level
  /-- The part of the program that it happened in. -/
  target : String
  message : String
  deriving DecidableEq, Repr, Inhabited

/-- The line that is written for a record. -/
def Record.line (r : Record) : String :=
  r.level.name.map Char.toUpper ++ " " ++ r.target ++ ": " ++ r.message

/-! ## Filters -/

/-- Sets how much is shown of the parts of the program whose names start with `target`. -/
structure Directive where
  target : Text
  level : Level
  deriving DecidableEq, Repr, Inhabited

abbrev Filter := List Directive

/-- Can a directive start with this character? -/
def startsDirective (c : Char) : Bool := isWord c || c == '-' || c == ':'

/-- A directive is a level for everything; or a target, an equals sign and a level, which may be
    left out; or a target alone. A target without a level shows everything. Where the equals sign
    stands is counted from the first character that is no white space. -/
def Directive.ofText? (part : Text) : Option Directive :=
  let body := trim part
  match body with
  | [] => some ⟨[], .trace⟩
  | c :: _ =>
    if startsDirective c then
      let place := (body.takeWhile (· != '=')).length
      if place < body.length then
        let level := part.drop (place + 1)
        if level.isEmpty then some ⟨part.take place, .trace⟩
        else (Level.ofText? level).map (⟨part.take place, ·⟩)
      else match Level.ofText? part with
        | some level => some ⟨[], level⟩
        | none => some ⟨part, .trace⟩
    else none

namespace Filter

/-- The directives between commas, of which empty ones are skipped; nothing if one is wrong. -/
def ofText? (spec : Text) : Option Filter :=
  ((splitAt ',' spec).filter (!·.isEmpty)).mapM Directive.ofText?

/-- The filter for a specification. Warnings are shown if there is none or it is wrong. -/
def ofSpec (spec : Option Text) : Filter := (spec.bind ofText?).getD [⟨[], .warn⟩]

/-- The most verbose level among the directives. -/
def maxLevel (f : Filter) : Level := f.foldl (fun level d => level.max d.level) .off

/-- The directive that decides about a target. -/
def directiveFor? (f : Filter) (target : Text) : Option Directive :=
  f.foldl (fun best d =>
    if d.target.isPrefixOf target ∧ best.all (·.target.length ≤ d.target.length) then some d
    else best) none

/-- Is the record shown? -/
def shows (f : Filter) (r : Record) : Bool :=
  (directiveFor? f r.target.toList).any (r.level.rank ≤ ·.level.rank)

end Filter

end DocOutline.Log
