import DocOutline.Command.Journal
import DocOutline.Command.Line

set_option autoImplicit false

/-! # The program

A run of the program, as far as one can see it from outside: its exit code, what it writes, the
records it logs and the line that reports a failure. -/

namespace DocOutline

open CommandLine

/-- What the program shows of itself for `--version`. -/
def versionText : String := "adoc-outline 1.0.0\n"

/-- What the program shows of itself for `--help`. -/
def usageText : String :=
  "Document outline for AsciiDoc files\n\n" ++
  "Usage: adoc-outline outline <INPUT> [-f|--format text|json] [-d|--max-depth N]\n" ++
  "                            [--no-offsets] [-c|--config PATH]\n" ++
  "       adoc-outline tokens <INPUT> [-c|--config PATH]\n"

/-- What a run of the program shows. -/
structure Report where
  exitCode : Nat := 0
  stdout : Text := []
  log : List Log.Record := []
  errorLine : Option String := none
  deriving DecidableEq, Repr, Inhabited

/-- A run that ends with the arguments. Help and version are what was asked for; anything else is a
    fault of usage. -/
def Report.ofStop : Stop → Report
  | .help => { stdout := usageText.toList }
  | .version => { stdout := versionText.toList }
  | _ => { exitCode := 2 }

/-- A run that carries out a command. -/
def Report.ofCommand (files : Files) (filter : Log.Filter) (c : Command) : Report :=
  let log := (c.journal files).filter filter.shows
  match c.run files with
  | .ok output => { stdout := output, log }
  | .error failure => { exitCode := 1, log, errorLine := some ("Error: " ++ failure.message) }

/-- Runs the program on its arguments, with a specification of what to log. -/
def runProgram (files : Files) (logSpec : Option Text) (args : List String) : Report :=
  match CommandLine.read args with
  | .error stop => .ofStop stop
  | .ok c => .ofCommand files (.ofSpec logSpec) c

/-- The paths that a run of the program may look at. -/
def pathsOf (args : List String) : List Path :=
  match CommandLine.read args with
  | .error _ => []
  | .ok c =>
    let sibling := (Path.parent? c.input).map (Path.join · configFileName)
    [c.input] ++ c.config.toList ++ sibling.toList

end DocOutline
