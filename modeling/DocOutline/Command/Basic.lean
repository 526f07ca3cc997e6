import DocOutline.Files.Basic
import DocOutline.Render.Json
import DocOutline.Render.Tree
import DocOutline.Section.Nesting
import DocOutline.Section.Prune
import DocOutline.Settings.Decode
import DocOutline.Token.Dump

set_option autoImplicit false

/-! # Commands

Two commands read a document: one writes its outline, the other its tokens. Both first find their
settings, in the file that is named, or in a file beside the document, or else the defaults. Only
then do they look at the document, so a fault of the settings hides any fault of the document. -/

namespace DocOutline

open Text

/-- What the program is asked to do. -/
inductive Command where
  /-- Write the outline of the document at `input`. -/
  | outline (input : Path) (config : Option Path) (flags : Flags)
  /-- Write the tokens of the document at `input`. -/
  | tokens (input : Path) (config : Option Path)
  deriving DecidableEq, Repr, Inhabited

/-! ## Failures -/

/-- Why a settings file cannot be used. -/
inductive ConfigError where
  | unreadable (e : ReadError)
  | rejected (e : SettingsError)
  deriving DecidableEq, Repr

/-- Why a command fails. -/
inductive Failure where
  | config (path : Path) (e : ConfigError)
  | inputMissing (path : Path)
  | inputUnreadable (path : Path) (e : ReadError)
  deriving DecidableEq, Repr

namespace Failure

def message : Failure → String
  | .config path _ => s!"Failed to load config: {path}"
  | .inputMissing path => s!"Input file not found: {path}"
  | .inputUnreadable path _ => s!"Failed to read: {path}"

/-- What led to the failure, from the outside in. A malformed settings file has nothing to add. -/
def causes : Failure → List String
  | .config _ (.unreadable e) => ["IO error: " ++ e.message, e.message]
  | .config _ (.rejected (.invalid e)) => [e.message]
  | .config _ (.rejected .malformed) => []
  | .inputMissing _ => []
  | .inputUnreadable _ e => [e.message]

end Failure

/-! ## Settings -/

/-- The name of the settings file beside a document. -/
def configFileName : String := "adoc-outline.toml"

/-- The settings file beside a document, if there is one. -/
def siblingConfig? (files : Files) (input : Path) : Option Path :=
  ((Path.parent? input).map (Path.join · configFileName)).filter files.hasFile

/-- The settings in a file. -/
def loadConfig (files : Files) (path : Path) : Except Failure Settings :=
  match files.readText path with
  | .error e => .error (.config path (.unreadable e))
  | .ok text => (Settings.ofToml text).mapError fun e => .config path (.rejected e)

/-- The settings for a document: from the file that is named, or else from the one beside the
    document, or else the defaults. -/
def loadSettings (files : Files) (config : Option Path) (input : Path) :
    Except Failure Settings :=
  match config with
  | some path => loadConfig files path
  | none =>
    match siblingConfig? files input with
    | some path => loadConfig files path
    | none => .ok {}

/-! ## Documents -/

/-- The text of a document. -/
def readInput (files : Files) (input : Path) : Except Failure Text :=
  if files.has input then (files.readText input).mapError (.inputUnreadable input)
  else .error (.inputMissing input)

/-- An outline as the options ask for it, pruned to their depth. -/
def Forest.render (f : Forest) (text : Text) (options : OutputOptions) : Text :=
  let pruned := f.prune options.maxDepth
  match options.format with
  | .text => pruned.renderTree text options.showOffsets
  | .json => pruned.renderJson

/-- The outline of a text as the settings ask for it. -/
def outlineText (settings : Settings) (text : Text) : Text :=
  (Document.ofText settings.headings text).outline.render text settings.output

/-- The token dump of a text. -/
def tokensText (settings : Settings) (text : Text) : Text :=
  Token.dump (Document.ofText settings.headings text).tokens

/-- The outline of the document at a path. -/
def outlineFile (files : Files) (settings : Settings) (input : Path) : Except Failure Text :=
  (readInput files input).map (outlineText settings)

/-- The token dump of the document at a path. -/
def tokensFile (files : Files) (settings : Settings) (input : Path) : Except Failure Text :=
  (readInput files input).map (tokensText settings)

namespace Command

def input : Command → Path
  | .outline input _ _ => input
  | .tokens input _ => input

def config : Command → Option Path
  | .outline _ config _ => config
  | .tokens _ config => config

/-- Carries out a command. -/
def run (files : Files) : Command → Except Failure Text
  | .outline input config flags => do
    let settings ← loadSettings files config input
    outlineFile files (settings.override flags) input
  | .tokens input config => do
    let settings ← loadSettings files config input
    tokensFile files settings input

end Command

end DocOutline
