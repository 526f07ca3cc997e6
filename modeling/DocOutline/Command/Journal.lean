import DocOutline.Command.Basic
import DocOutline.Log.Record

set_option autoImplicit false

/-! # What a command logs

The records of a run, in order: the settings file that was found, the tokens that were read, every
section as it is opened and closed, and the outline. A run that fails has the records of the stages
it went through. -/

namespace DocOutline

open Text Log

/-! ## Records -/

namespace Journal

def application : String := "adoc_outline_cli::app"
def tokenReading : String := "adoc_outline::lexer"
def nesting : String := "adoc_outline::structure::scanner"

def foundConfig (path : Path) : Record :=
  ⟨.debug, application, s!"using config next to input path={path}"⟩

def readTokens (tokens bytes : Nat) : Record :=
  ⟨.debug, tokenReading, s!"lexed document tokens={tokens} bytes={bytes}"⟩

def opened (level start : Nat) (name : Text) : Record :=
  ⟨.trace, nesting, s!"open section level={level} start={start} name=" ++ String.ofList name⟩

def closed (level start stop : Nat) : Record :=
  ⟨.trace, nesting, s!"close section level={level} start={start} end={stop}"⟩

def nested (tokens roots : Nat) : Record :=
  ⟨.debug, nesting, s!"scanned structure tokens={tokens} sections={roots}"⟩

def builtOutline (input : Path) (sections : Nat) : Record :=
  ⟨.info, application, s!"built outline file={input} sections={sections}"⟩

end Journal

open Journal

/-! ## Stages -/

mutual
/-- A section is opened, then the sections inside it are dealt with, then it is closed. -/
def Section.journal : Section → List Record
  | ⟨name, level, start, stop, children⟩ =>
    opened level start name :: Forest.journal children ++ [closed level start stop]

def Forest.journal : List Section → List Record
  | [] => []
  | s :: rest => s.journal ++ Forest.journal rest
end

namespace Document

/-- The record of reading a document. -/
def readingJournal (d : Document) : List Record :=
  [readTokens d.tokens.length (byteLength d.text)]

/-- The records of nesting the headings of a document. -/
def nestingJournal (d : Document) : List Record :=
  Forest.journal d.outline ++ [nested d.tokens.length d.outline.length]

end Document

/-- The record of finding settings beside a document. -/
def settingsJournal (files : Files) (config : Option Path) (input : Path) : List Record :=
  match config with
  | some _ => []
  | none => ((siblingConfig? files input).map foundConfig).toList

/-- The records of a run of a command. -/
def Command.journal (files : Files) (c : Command) : List Record :=
  settingsJournal files c.config c.input ++
    match loadSettings files c.config c.input, readInput files c.input with
    | .ok settings, .ok text =>
      let d := Document.ofText settings.headings text
      match c with
      | .outline input _ _ =>
        d.readingJournal ++ d.nestingJournal ++ [builtOutline input (Forest.count d.outline)]
      | .tokens _ _ => d.readingJournal
    | _, _ => []

end DocOutline
