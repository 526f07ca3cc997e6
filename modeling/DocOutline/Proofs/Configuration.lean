import DocOutline.Command.Basic
import DocOutline.Proofs.SettingsFile

set_option autoImplicit false

/-! # Which settings count, and which fault

A run has three places to look for a setting: the flags, a settings file and the defaults. And it can
fail in two: at the settings file and at the document. Here is said which settings file a run has
(`ConfigChoice`), what can be wrong with it (`ConfigFault`) and with the document (`InputFault`), and
which settings count when nothing is (`Settings.Effective`).

The settings of a run are described one by one: the flag if it is given, or else what the settings
file has, or else the default. Heading rules have no flags. -/

namespace DocOutline

open Text Toml

/-! ## The settings that count -/

/-- What a setting is set to by flags. The heading rules have none, and offsets can only be turned
    off. -/
def Setting.flag? (flags : Flags) : (setting : Setting) → Option setting.Content
  | .maxLevel => none
  | .markdown => none
  | .format => flags.format
  | .showOffsets => if flags.noOffsets then some false else none
  | .maxDepth => flags.maxDepth

/-- The settings that count for a run with the given flags and the given settings file, if there is
    one: for each setting the flag if it is given, or else what the file has, or else the default. -/
def Settings.Effective (flags : Flags) (doc : Option Table) (s : Settings) : Prop :=
  ∀ setting : Setting,
    match setting.flag? flags with
    | some given => setting.of s = given
    | none => setting.Given (doc.bind setting.entry?) (setting.of s)

namespace Settings

/-- Flags and settings file leave nothing open. -/
theorem Effective.unique {flags : Flags} {doc : Option Table} {s s' : Settings}
    (h : Effective flags doc s) (h' : Effective flags doc s') : s = s' := by
  refine Setting.ext_of fun setting => ?_
  have hs := h setting
  have hs' := h' setting
  cases hflag : setting.flag? flags with
  | some given =>
    rw [hflag] at hs hs'
    exact hs.trans hs'.symm
  | none =>
    rw [hflag] at hs hs'
    exact hs.unique hs'

/-- A flag is laid over the setting. -/
theorem of_override (s : Settings) (flags : Flags) (setting : Setting) :
    setting.of (s.override flags) = (setting.flag? flags).getD (setting.of s) := by
  cases setting with
  | showOffsets =>
    show (if flags.noOffsets then false else s.output.showOffsets)
      = (if flags.noOffsets then some false else none).getD s.output.showOffsets
    cases flags.noOffsets <;> rfl
  | _ => rfl

/-- Flags are laid over the settings that count without them. -/
theorem effective_override {doc : Option Table} {s : Settings}
    (h : ∀ setting : Setting, setting.Given (doc.bind setting.entry?) (setting.of s))
    (flags : Flags) : Effective flags doc (s.override flags) := by
  intro setting
  rw [of_override]
  cases setting.flag? flags with
  | some given => rfl
  | none => exact h setting

end Settings

/-! ## The settings file -/

@[simp] theorem mapError_ok {ε ε' α : Type} (f : ε → ε') (a : α) :
    (Except.ok a : Except ε α).mapError f = .ok a := rfl

@[simp] theorem mapError_error {ε ε' α : Type} (f : ε → ε') (e : ε) :
    (Except.error e : Except ε α).mapError f = .error (f e) := rfl

/-- Which file the settings come from, if one is named or not: the named one, or else the one beside
    the document if a file stands there, or else none. -/
inductive ConfigChoice (files : Files) (input : Path) : Option Path → Option Path → Prop
  | named (path : Path) : ConfigChoice files input (some path) (some path)
  | beside {dir : Path} (hdir : Path.parent? input = some dir)
      (hfile : files.hasFile (Path.join dir configFileName) = true) :
      ConfigChoice files input none (some (Path.join dir configFileName))
  | absent (h : ∀ dir, Path.parent? input = some dir →
      files.hasFile (Path.join dir configFileName) = false) :
      ConfigChoice files input none none

/-- What is wrong with a settings file: it cannot be read; or it is no TOML, or malformed; or the
    deepest level that it gives is not one of the six there are. -/
inductive ConfigFault (files : Files) (path : Path) : ConfigError → Prop
  | unreadable {e : ReadError} (hread : files.readText path = .error e) :
      ConfigFault files path (.unreadable e)
  | malformed {text : Text} (hread : files.readText path = .ok text)
      (hbad : ∀ doc, parse? text = some doc → doc.Malformed) :
      ConfigFault files path (.rejected .malformed)
  | invalid {text : Text} {doc : Table} {s : Settings} (hread : files.readText path = .ok text)
      (hparse : parse? text = some doc) (hfit : doc.GroupsFit) (hgiven : s.GivenBy doc)
      (hlevel : s.headings.maxLevel = 0 ∨ 6 < s.headings.maxLevel) :
      ConfigFault files path (.rejected (.invalid (.levelOutOfRange s.headings.maxLevel)))

/-- Nothing is wrong with a settings file, which gives the settings `s`. -/
structure ConfigLoads (files : Files) (path : Path) (doc : Table) (s : Settings) : Prop where
  read : ∃ text, files.readText path = .ok text ∧ parse? text = some doc
  fit : doc.GroupsFit
  given : s.GivenBy doc
  level_pos : 1 ≤ s.headings.maxLevel
  level_le : s.headings.maxLevel ≤ 6

/-- The settings file of a run that is not held up by it, if there is one. -/
inductive ConfigDocument (files : Files) (input : Path) (config : Option Path) :
    Option Table → Prop
  | absent (hchoice : ConfigChoice files input config none) :
      ConfigDocument files input config none
  | loaded {path : Path} {doc : Table} {s : Settings}
      (hchoice : ConfigChoice files input config (some path))
      (hloads : ConfigLoads files path doc s) : ConfigDocument files input config (some doc)

section Config

variable {files : Files} {input path : Path} {config : Option Path}

theorem exists_configChoice (files : Files) (input : Path) (config : Option Path) :
    ∃ chosen, ConfigChoice files input config chosen := by
  cases config with
  | some path => exact ⟨some path, .named path⟩
  | none =>
    by_cases hbeside : ∃ dir, Path.parent? input = some dir ∧
        files.hasFile (Path.join dir configFileName) = true
    · obtain ⟨dir, hdir, hfile⟩ := hbeside
      exact ⟨_, .beside hdir hfile⟩
    · refine ⟨none, .absent fun dir hdir => ?_⟩
      rw [← Bool.not_eq_true]
      exact fun hfile => hbeside ⟨dir, hdir, hfile⟩

/-- The settings are loaded from the file that is chosen. -/
theorem ConfigChoice.loadSettings_eq {chosen : Option Path}
    (h : ConfigChoice files input config chosen) :
    loadSettings files config input
      = match chosen with
        | some path => loadConfig files path
        | none => .ok {} := by
  cases h with
  | named path => rfl
  | @beside dir hdir hfile =>
    have hsome : siblingConfig? files input = some (Path.join dir configFileName) := by
      rw [siblingConfig?, hdir, Option.map_some, Option.filter_some, if_pos hfile]
    simp [loadSettings, hsome]
  | absent h =>
    have hnone : siblingConfig? files input = none := by
      cases hdir : Path.parent? input with
      | none => simp [siblingConfig?, hdir]
      | some dir => simp [siblingConfig?, hdir, h dir hdir]
    simp [loadSettings, hnone]

/-- Either something is wrong with a settings file, or it can be loaded. -/
theorem configFault_or_loads (files : Files) (path : Path) :
    (∃ e, ConfigFault files path e) ∨ ∃ doc s, ConfigLoads files path doc s := by
  cases hread : files.readText path with
  | error e => exact Or.inl ⟨_, .unreadable hread⟩
  | ok text =>
    cases hparse : parse? text with
    | none => exact Or.inl ⟨_, .malformed hread fun doc hdoc => by simp [hparse] at hdoc⟩
    | some doc =>
      cases hdecode : Settings.decode? doc with
      | none =>
        refine Or.inl ⟨_, .malformed hread fun doc' hdoc' => ?_⟩
        obtain rfl := Option.some.inj (hparse.symm.trans hdoc')
        exact Settings.decode?_eq_none_iff.1 hdecode
      | some s =>
        obtain ⟨hfit, hgiven⟩ := Settings.decode?_eq_some_iff.1 hdecode
        by_cases hlevel : s.headings.maxLevel = 0 ∨ 6 < s.headings.maxLevel
        · exact Or.inl ⟨_, .invalid hread hparse hfit hgiven hlevel⟩
        · exact Or.inr ⟨doc, s, ⟨text, hread, hparse⟩, hfit, hgiven, by omega, by omega⟩

theorem ConfigFault.loadConfig_eq {e : ConfigError} (h : ConfigFault files path e) :
    loadConfig files path = .error (.config path e) := by
  cases h with
  | unreadable hread => simp [loadConfig, hread]
  | malformed hread hbad => simp [loadConfig, hread, Settings.ofToml_of_malformed hbad]
  | invalid hread hparse hfit hgiven hlevel =>
    have hdecode := Settings.decode?_eq_some_iff.2 ⟨hfit, hgiven⟩
    simp [loadConfig, hread, Settings.ofToml_of_invalid hparse hdecode hlevel]

theorem ConfigLoads.loadConfig_eq {doc : Table} {s : Settings}
    (h : ConfigLoads files path doc s) : loadConfig files path = .ok s := by
  obtain ⟨⟨text, hread, hdoc⟩, hfit, hgiven, hpos, hle⟩ := h
  have hdecode := Settings.decode?_eq_some_iff.2 ⟨hfit, hgiven⟩
  simp [loadConfig, hread, Settings.ofToml_of_valid hdoc hdecode hpos hle]

/-- A run that is not held up by its settings file has the settings that count for it. -/
theorem ConfigDocument.exists_settings {doc : Option Table}
    (h : ConfigDocument files input config doc) :
    ∃ s, loadSettings files config input = .ok s ∧
      ∀ flags, Settings.Effective flags doc (s.override flags) := by
  cases h with
  | absent hchoice =>
    refine ⟨{}, hchoice.loadSettings_eq, Settings.effective_override fun setting => ?_⟩
    cases setting <;> rfl
  | loaded hchoice hloads =>
    refine ⟨_, hchoice.loadSettings_eq.trans hloads.loadConfig_eq, ?_⟩
    exact Settings.effective_override hloads.given

/-- Either a run is held up by its settings file, or it is not. -/
theorem configFault_or_document (files : Files) (input : Path) (config : Option Path) :
    (∃ path e, ConfigChoice files input config (some path) ∧ ConfigFault files path e) ∨
      ∃ doc, ConfigDocument files input config doc := by
  obtain ⟨chosen, hchoice⟩ := exists_configChoice files input config
  cases chosen with
  | none => exact Or.inr ⟨none, .absent hchoice⟩
  | some path =>
    rcases configFault_or_loads files path with ⟨e, hfault⟩ | ⟨doc, s, hloads⟩
    · exact Or.inl ⟨path, e, hchoice, hfault⟩
    · exact Or.inr ⟨some doc, .loaded hchoice hloads⟩

end Config

/-! ## The document -/

/-- What is wrong with a document: nothing stands at its path, or what stands there cannot be
    read. -/
inductive InputFault (files : Files) (input : Path) : Failure → Prop
  | missing (h : files.has input = false) : InputFault files input (.inputMissing input)
  | unreadable {e : ReadError} (h : files.has input = true)
      (hread : files.readText input = .error e) :
      InputFault files input (.inputUnreadable input e)

/-- A file that holds the UTF-8 form of a text can be read, and gives the text. -/
theorem Files.readText_of_file {files : Files} {path : Path} {text : Text}
    (h : files path = .ok (.file (String.ofList text).toUTF8)) : files.readText path = .ok text := by
  have hvalid : String.fromUTF8? (String.ofList text).toUTF8 = some (String.ofList text) :=
    dif_pos (String.ofList text).isValidUTF8
  simp only [Files.readText, h, hvalid, String.toList_ofList]

theorem InputFault.readInput_eq {files : Files} {input : Path} {failure : Failure}
    (h : InputFault files input failure) : readInput files input = .error failure := by
  cases h with
  | missing h => simp [readInput, h]
  | unreadable h hread => simp [readInput, h, hread]

theorem readInput_of_readText {files : Files} {input : Path} {text : Text}
    (h : files.readText input = .ok text) : readInput files input = .ok text := by
  have hhas : files.has input = true := by
    unfold Files.readText at h
    unfold Files.has
    cases hentry : files input with
    | ok entry => rfl
    | error why => simp [hentry] at h
  simp [readInput, hhas, h]

theorem inputFault_or_readText (files : Files) (input : Path) :
    (∃ failure, InputFault files input failure) ∨ ∃ text, files.readText input = .ok text := by
  cases hread : files.readText input with
  | ok text => exact Or.inr ⟨text, rfl⟩
  | error e =>
    cases hhas : files.has input with
    | false => exact Or.inl ⟨_, .missing hhas⟩
    | true => exact Or.inl ⟨_, .unreadable hhas hread⟩

/-! ## Runs -/

namespace Command

theorem run_outline (files : Files) (input : Path) (config : Option Path) (flags : Flags) :
    run files (.outline input config flags)
      = (loadSettings files config input).bind fun settings =>
          (readInput files input).map (outlineText (settings.override flags)) := rfl

theorem run_tokens (files : Files) (input : Path) (config : Option Path) :
    run files (.tokens input config)
      = (loadSettings files config input).bind fun settings =>
          (readInput files input).map (tokensText settings) := rfl

end Command

end DocOutline
