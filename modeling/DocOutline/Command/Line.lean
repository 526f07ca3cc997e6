import DocOutline.Command.Basic

set_option autoImplicit false

/-! # The command line

The arguments are read from left to right, and the first fault ends the reading. An option takes
the argument after it for its value, unless the value is attached to it. A value that stands in an
argument of its own is looked at when the argument after it has been understood, or at the end; so
an argument that is not understood counts before the value in front of it. An attached value is
looked at right away. After a lone `--` every argument stands for itself. -/

namespace DocOutline

namespace CommandLine

open Text

/-- Why the arguments give no command to run. -/
inductive Stop where
  /-- There is no argument that could name a command. -/
  | noCommand
  | help
  | version
  | unknownCommand
  | unknownArgument
  /-- A value is missing, empty, or none of those that are possible. -/
  | invalidValue
  /-- The value of a numeric option is no number, or too large a one. -/
  | malformedNumber
  | repeatedOption
  /-- A flag is given a value. -/
  | unexpectedValue
  | missingInput
  deriving DecidableEq, Repr, Inhabited

/-! ## Arguments -/

/-- How an argument reads by itself. -/
inductive Arg where
  /-- `--` -/
  | separator
  /-- `--name` or `--name=value` -/
  | long (name : String) (value : Option String)
  /-- `-c`, `-cvalue` or `-c=value` -/
  | short (letter : Char) (value : Option String)
  /-- Anything else, also a lone `-`. -/
  | plain (word : String)
  deriving DecidableEq, Repr, Inhabited

def Arg.ofString (s : String) : Arg :=
  match s.toList with
  | ['-', '-'] => .separator
  | '-' :: '-' :: body =>
    let value := match body.dropWhile (· != '=') with
      | [] => none
      | _ :: value => some (String.ofList value)
    .long (String.ofList (body.takeWhile (· != '='))) value
  | '-' :: letter :: rest =>
    .short letter (match rest with
      | [] => none
      | '=' :: value => some (String.ofList value)
      | value => some (String.ofList value))
  | _ => .plain s

/-! ## Options -/

/-- The commands. -/
inductive Verb where
  | outline
  | tokens
  deriving DecidableEq, Repr, Inhabited

def Verb.ofName? (name : String) : Option Verb :=
  if name = "outline" then some .outline
  else if name = "tokens" then some .tokens
  else none

/-- What takes a value. -/
inductive Slot where
  | input
  | format
  | maxDepth
  | config
  deriving DecidableEq, Repr, Inhabited

/-- What an option does. -/
inductive Effect where
  | help
  | noOffsets
  | fill (slot : Slot)
  deriving DecidableEq, Repr, Inhabited

/-- The option of a command with a long name. -/
def Verb.long? (verb : Verb) (name : String) : Option Effect :=
  if name = "help" then some .help
  else if name = "config" then some (.fill .config)
  else if verb = .outline then
    if name = "format" then some (.fill .format)
    else if name = "max-depth" then some (.fill .maxDepth)
    else if name = "no-offsets" then some .noOffsets
    else none
  else none

/-- The option of a command with a short name. -/
def Verb.short? (verb : Verb) (letter : Char) : Option Effect :=
  if letter = 'h' then some .help
  else if letter = 'c' then some (.fill .config)
  else if verb = .outline then
    if letter = 'f' then some (.fill .format)
    else if letter = 'd' then some (.fill .maxDepth)
    else none
  else none

/-! ## Values -/

/-- The values that have been looked at. -/
structure Given where
  input : Option Path := none
  config : Option Path := none
  flags : Flags := {}
  deriving DecidableEq, Repr, Inhabited

/-- A path is not empty. -/
def pathOf (s : String) : Except Stop Path := if s.isEmpty then .error .invalidValue else .ok s

def formatOf (s : String) : Except Stop OutputFormat :=
  if s = "text" then .ok .text
  else if s = "json" then .ok .json
  else .error .invalidValue

def depthOf (s : String) : Except Stop Nat :=
  match toWord? s.toList with
  | some n => .ok n
  | none => .error .malformedNumber

namespace Given

def isFilled (g : Given) : Slot → Bool
  | .input => g.input.isSome
  | .format => g.flags.format.isSome
  | .maxDepth => g.flags.maxDepth.isSome
  | .config => g.config.isSome

/-- Looks at a value, which is only good for a slot that has none. -/
def fill (g : Given) (slot : Slot) (value : String) : Except Stop Given :=
  if g.isFilled slot then .error .repeatedOption
  else match slot with
    | .input => do return { g with input := some (← pathOf value) }
    | .config => do return { g with config := some (← pathOf value) }
    | .format => do return { g with flags := { g.flags with format := some (← formatOf value) } }
    | .maxDepth => do return { g with flags := { g.flags with maxDepth := some (← depthOf value) } }

end Given

/-! ## Reading -/

/-- What has been read and not been looked at. -/
inductive Held where
  | nothing
  /-- An option whose value has yet to come. -/
  | awaiting (slot : Slot)
  | value (slot : Slot) (value : String)
  deriving DecidableEq, Repr, Inhabited

/-- How far the reading of a command's arguments has come. -/
structure Progress where
  given : Given := {}
  held : Held := .nothing
  /-- Has the document been named? -/
  named : Bool := false
  /-- Do all further arguments stand for themselves? -/
  verbatim : Bool := false
  deriving DecidableEq, Repr, Inhabited

namespace Progress

/-- Looks at what is held back. -/
def settle (p : Progress) : Except Stop Progress :=
  match p.held with
  | .nothing => .ok p
  | .awaiting _ => .error .invalidValue
  | .value slot value => do return { p with given := ← p.given.fill slot value, held := .nothing }

/-- Reads an option, with the value that is attached to it. -/
def option (p : Progress) (found : Option Effect) (value : Option String) :
    Except Stop Progress :=
  match found, value with
  | none, _ => .error .unknownArgument
  | some (.fill slot), none => do return { ← p.settle with held := .awaiting slot }
  | some (.fill slot), some v => do
    let p ← p.settle
    return { p with given := ← p.given.fill slot v }
  | some _, some _ => .error .unexpectedValue
  | some .help, none => do
    let _ ← p.settle
    .error .help
  | some .noOffsets, none => do
    let p ← p.settle
    if p.given.flags.noOffsets then .error .repeatedOption
    else return { p with given.flags.noOffsets := true }

/-- Reads a word that is the value of no option: the document, which is named once. -/
def name (p : Progress) (word : String) : Except Stop Progress :=
  if p.named then .error .unknownArgument
  else do return { ← p.settle with held := .value .input word, named := true }

/-- Reads one argument of a command. A short option takes the rest of its argument for a value, so
    nothing that follows `-h` in one argument is read. -/
def step (verb : Verb) (p : Progress) (arg : String) : Except Stop Progress :=
  if p.verbatim then p.name arg
  else match Arg.ofString arg with
    | .separator => .ok { p with verbatim := true }
    | .long name value => p.option (verb.long? name) value
    | .short letter value =>
      if letter = 'h' then p.option (verb.short? letter) none
      else p.option (verb.short? letter) value
    | .plain word =>
      match p.held with
      | .awaiting slot => .ok { p with held := .value slot word }
      | _ => p.name word

/-- The command that has been read. -/
def finish (verb : Verb) (p : Progress) : Except Stop Command := do
  let given := (← p.settle).given
  match given.input with
  | none => .error .missingInput
  | some input =>
    match verb with
    | .outline => return .outline input given.config given.flags
    | .tokens => return .tokens input given.config

end Progress

/-- Reads the arguments of a command. -/
def readCommand (verb : Verb) (args : List String) : Except Stop Command := do
  Progress.finish verb (← args.foldlM (Progress.step verb) {})

/-- Reads the arguments of the command that shows help: at most the name of a command. -/
def readHelp : List String → Stop
  | [] => .help
  | [name] => if (Verb.ofName? name).isSome || name == "help" then .help else .unknownCommand
  | _ => .unknownCommand

/-- Reads the arguments of the program. -/
def read : List String → Except Stop Command
  | [] => .error .noCommand
  | first :: rest =>
    match Arg.ofString first with
    | .separator => .error (if rest.isEmpty then .noCommand else .unknownArgument)
    | .long name value =>
      if name = "help" ∨ name = "version" then
        if value.isSome then .error .unexpectedValue
        else .error (if name = "help" then .help else .version)
      else .error .unknownArgument
    | .short letter _ =>
      if letter = 'h' then .error .help
      else if letter = 'V' then .error .version
      else .error .unknownArgument
    | .plain word =>
      match Verb.ofName? word with
      | some verb => readCommand verb rest
      | none => .error (if word = "help" then readHelp rest else .unknownCommand)

end CommandLine

end DocOutline
