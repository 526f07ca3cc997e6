import DocOutline.Settings.Decode

set_option autoImplicit false

/-! # Settings one by one

Of all that a settings file may hold, five values count (`Setting`). Each has its place, a default,
and its own notion of the values that can be given for it (`Setting.Stands`). With these, what a file
gives is described without a word about how it is read: settings are given by a file if they have for
each of the five what the file has, or the default (`Settings.GivenBy`). A file cannot be read exactly
if one of its groups is no group, or one of the five has a value that stands for nothing
(`Settings.decode?_eq_none_iff`). -/

namespace DocOutline

open Text Toml

/-! ## The settings -/

/-- The settings that a file can give. -/
inductive Setting where
  | maxLevel
  | markdown
  | format
  | showOffsets
  | maxDepth
  deriving DecidableEq, Repr

/-- The name of a format in a settings file. -/
def OutputFormat.name : OutputFormat → Text
  | .text => "text".toList
  | .json => "json".toList

namespace Setting

theorem forall_iff {p : Setting → Prop} :
    (∀ setting, p setting) ↔
      p .maxLevel ∧ p .markdown ∧ p .format ∧ p .showOffsets ∧ p .maxDepth := by
  constructor
  · intro h
    exact ⟨h _, h _, h _, h _, h _⟩
  · rintro ⟨hlevel, hmarkdown, hformat, hshow, hdepth⟩ setting
    cases setting <;> assumption

/-- The group that has the setting. -/
def group : Setting → String
  | .maxLevel => "lexer"
  | .markdown => "lexer"
  | .format => "output"
  | .showOffsets => "output"
  | .maxDepth => "output"

/-- The key of the setting in a group that is a table. -/
def key : Setting → String
  | .maxLevel => "max_header_level"
  | .markdown => "markdown_headings"
  | .format => "format"
  | .showOffsets => "show_offsets"
  | .maxDepth => "max_depth"

/-- The place of the setting in a group that is an array. -/
def place : Setting → Nat
  | .maxLevel => 0
  | .markdown => 1
  | .format => 0
  | .showOffsets => 1
  | .maxDepth => 2

/-- What the setting can be set to. -/
abbrev Content : Setting → Type
  | .maxLevel => Nat
  | .markdown => Bool
  | .format => OutputFormat
  | .showOffsets => Bool
  | .maxDepth => Nat

/-- What counts if the setting is not given. -/
def default : (setting : Setting) → setting.Content
  | .maxLevel => (6 : Nat)
  | .markdown => true
  | .format => OutputFormat.text
  | .showOffsets => true
  | .maxDepth => (0 : Nat)

/-- What settings have for this one. -/
def of (s : Settings) : (setting : Setting) → setting.Content
  | .maxLevel => s.headings.maxLevel
  | .markdown => s.headings.markdown
  | .format => s.output.format
  | .showOffsets => s.output.showOffsets
  | .maxDepth => s.output.maxDepth

/-- Settings are what they have for each one. -/
theorem ext_of {s s' : Settings} (h : ∀ setting : Setting, setting.of s = setting.of s') :
    s = s' := by
  obtain ⟨⟨maxLevel, markdown⟩, ⟨format, showOffsets, maxDepth⟩⟩ := s
  obtain ⟨⟨maxLevel', markdown'⟩, ⟨format', showOffsets', maxDepth'⟩⟩ := s'
  obtain rfl : maxLevel = maxLevel' := h .maxLevel
  obtain rfl : markdown = markdown' := h .markdown
  obtain rfl : format = format' := h .format
  obtain rfl : showOffsets = showOffsets' := h .showOffsets
  obtain rfl : maxDepth = maxDepth' := h .maxDepth
  rfl

/-! ## Values that are given -/

/-- The value `v` in a file sets the setting to `x`. The deepest level is an integer up to 255, the
    depth any integer that is not negative. A format is given by its name, or by a table with its
    name as the only key and an empty table or an empty array as the value. -/
def Stands (v : Value) : (setting : Setting) → setting.Content → Prop
  | .maxLevel, (n : Nat) => v = .integer n ∧ n ≤ 255
  | .markdown, b => v = .boolean b
  | .format, f => v = .string (OutputFormat.name f) ∨
      v = .table [(OutputFormat.name f, .table [])] ∨ v = .table [(OutputFormat.name f, .array [])]
  | .showOffsets, b => v = .boolean b
  | .maxDepth, (n : Nat) => v = .integer n

/-- What a file has for the setting: under its key if the group is a table, and at its place if it is
    an array. -/
def entry? (setting : Setting) (doc : Table) : Option Value :=
  match doc.get? setting.group with
  | some (.table entries) => Table.get? entries setting.key
  | some (.array items) => items[setting.place]?
  | _ => none

/-- What the setting is if the file has this for it: what the entry stands for, or the default. -/
def Given (setting : Setting) (entry : Option Value) (x : setting.Content) : Prop :=
  match entry with
  | some v => setting.Stands v x
  | none => x = setting.default

end Setting

/-- Can the value be a group of settings? A date is taken for a group without settings. -/
def Toml.Value.IsGroup : Value → Prop
  | .table _ => True
  | .array _ => True
  | .datetime _ => True
  | _ => False

/-- Where a file has a group of settings, it can be one. -/
def Toml.Table.GroupsFit (doc : Table) : Prop :=
  ∀ (setting : Setting) (v : Value), doc.get? setting.group = some v → v.IsGroup

/-- A file that cannot be read: what stands for a group is no group, or what stands for a setting
    stands for nothing. -/
def Toml.Table.Malformed (doc : Table) : Prop :=
  (∃ (setting : Setting) (v : Value), doc.get? setting.group = some v ∧ ¬ v.IsGroup) ∨
    ∃ (setting : Setting) (v : Value), setting.entry? doc = some v ∧ ¬ ∃ x, setting.Stands v x

/-- The settings that a file gives: each one as it stands there, or the default. -/
def Settings.GivenBy (doc : Table) (s : Settings) : Prop :=
  ∀ setting : Setting, setting.Given (setting.entry? doc) (setting.of s)

/-! ## Reading single values -/

namespace Settings

theorem levelOf?_eq_some_iff {v : Value} {n : Nat} :
    levelOf? v = some n ↔ v = .integer n ∧ n ≤ 255 := by
  cases v with
  | integer k =>
    simp only [levelOf?, Option.ite_none_right_eq_some, Option.some.injEq, Value.integer.injEq]
    omega
  | _ => simp [levelOf?]

theorem depthOf?_eq_some_iff {v : Value} {n : Nat} : depthOf? v = some n ↔ v = .integer n := by
  cases v with
  | integer k =>
    simp only [depthOf?, Option.ite_none_right_eq_some, Option.some.injEq, Value.integer.injEq]
    omega
  | _ => simp [depthOf?]

theorem flagOf?_eq_some_iff {v : Value} {b : Bool} : flagOf? v = some b ↔ v = .boolean b := by
  cases v <;> simp [flagOf?]

theorem formatNamed?_eq_some_iff {name : Text} {f : OutputFormat} :
    formatNamed? name = some f ↔ name = f.name := by
  unfold formatNamed?
  by_cases htext : name = "text".toList
  · cases f <;> simp [OutputFormat.name, htext]
  · by_cases hjson : name = "json".toList
    · cases f <;> simp [OutputFormat.name, hjson]
    · rw [if_neg htext, if_neg hjson]
      cases f with
      | text => exact iff_of_false (by simp) htext
      | json => exact iff_of_false (by simp) hjson

theorem formatOf?_eq_some_iff {v : Value} {f : OutputFormat} :
    formatOf? v = some f ↔ v = .string f.name ∨
      v = .table [(f.name, .table [])] ∨ v = .table [(f.name, .array [])] := by
  unfold formatOf?
  split
  · simp [formatNamed?_eq_some_iff]
  · simp [formatNamed?_eq_some_iff]
  · simp [formatNamed?_eq_some_iff]
  · rename_i hstring htable harray
    simp only [reduceCtorEq, false_iff, not_or]
    exact ⟨fun h => hstring _ h, fun h => htable _ h, fun h => harray _ h⟩

end Settings

namespace Setting

/-- Reads a value that is given for the setting. -/
def decode? : (setting : Setting) → Value → Option setting.Content
  | .maxLevel => Settings.levelOf?
  | .markdown => Settings.flagOf?
  | .format => Settings.formatOf?
  | .showOffsets => Settings.flagOf?
  | .maxDepth => Settings.depthOf?

/-- What stands for a setting is what is read for it. -/
theorem decode?_eq_some_iff {setting : Setting} {v : Value} {x : setting.Content} :
    setting.decode? v = some x ↔ setting.Stands v x := by
  cases setting with
  | maxLevel => exact Settings.levelOf?_eq_some_iff
  | markdown => exact Settings.flagOf?_eq_some_iff
  | format => exact Settings.formatOf?_eq_some_iff
  | showOffsets => exact Settings.flagOf?_eq_some_iff
  | maxDepth => exact Settings.depthOf?_eq_some_iff

theorem memberOr_eq_some_iff {setting : Setting} {entry : Option Value} {x : setting.Content} :
    Settings.memberOr setting.default setting.decode? entry = some x ↔ setting.Given entry x := by
  cases entry with
  | none => simp [Settings.memberOr, Given, eq_comm]
  | some v => exact decode?_eq_some_iff

/-- An entry stands for one thing. -/
theorem Given.unique {setting : Setting} {entry : Option Value} {x y : setting.Content}
    (hx : setting.Given entry x) (hy : setting.Given entry y) : x = y := by
  rw [← memberOr_eq_some_iff] at hx hy
  exact Option.some.inj (hx.symm.trans hy)

end Setting

/-! ## Reading groups -/

/-- How the members of a group of a file are found; none are if the group is missing. -/
def Toml.Table.find (doc : Table) (group : String) : String → Nat → Option Value :=
  ((doc.get? group).bind Settings.members?).getD fun _ _ => none

theorem Setting.find_eq_entry? (setting : Setting) (doc : Table) :
    doc.find setting.group setting.key setting.place = setting.entry? doc := by
  unfold Table.find Setting.entry?
  -- a group that is missing has no members, and neither has a value that is no group
  cases doc.get? setting.group with
  | none => rfl
  | some v => cases v <;> rfl

theorem Toml.Value.isGroup_iff {v : Value} :
    v.IsGroup ↔ ∃ find, Settings.members? v = some find := by
  cases v <;> simp [Value.IsGroup, Settings.members?]

namespace Settings

/-- A group that may be missing is read if it can be a group, and its members hold what is said of
    them. -/
theorem memberOr_group_iff {α : Type} {default : α} {decode : Value → Option α}
    {Holds : (String → Nat → Option Value) → α → Prop}
    (hdecode : ∀ v a, decode v = some a ↔ ∃ find, members? v = some find ∧ Holds find a)
    (hdefault : ∀ a, Holds (fun _ _ => none) a ↔ a = default) {doc : Table} {group : String}
    {a : α} :
    memberOr default decode (doc.get? group) = some a ↔
      (∀ v, doc.get? group = some v → v.IsGroup) ∧ Holds (doc.find group) a := by
  cases hgroup : doc.get? group with
  | none => simp [memberOr, Table.find, hgroup, hdefault, eq_comm]
  | some v =>
    cases hfind : members? v with
    | none => simp [memberOr, hdecode, Value.isGroup_iff, hfind]
    | some find => simp [memberOr, hdecode, Value.isGroup_iff, Table.find, hgroup, hfind]

theorem headingsOf?_eq_some_iff (v : Value) (rules : HeadingRules) :
    headingsOf? v = some rules ↔ ∃ find, members? v = some find ∧
      memberOr 6 levelOf? (find "max_header_level" 0) = some rules.maxLevel ∧
      memberOr true flagOf? (find "markdown_headings" 1) = some rules.markdown := by
  simp only [headingsOf?, Option.bind_eq_bind, Option.bind_eq_some_iff]
  constructor
  · rintro ⟨find, hfind, maxLevel, hmaxLevel, markdown, hmarkdown, hrules⟩
    obtain rfl := Option.some.inj hrules
    exact ⟨find, hfind, hmaxLevel, hmarkdown⟩
  · rintro ⟨find, hfind, hmaxLevel, hmarkdown⟩
    exact ⟨find, hfind, _, hmaxLevel, _, hmarkdown, rfl⟩

theorem outputOf?_eq_some_iff (v : Value) (options : OutputOptions) :
    outputOf? v = some options ↔ ∃ find, members? v = some find ∧
      memberOr .text formatOf? (find "format" 0) = some options.format ∧
      memberOr true flagOf? (find "show_offsets" 1) = some options.showOffsets ∧
      memberOr 0 depthOf? (find "max_depth" 2) = some options.maxDepth := by
  simp only [outputOf?, Option.bind_eq_bind, Option.bind_eq_some_iff]
  constructor
  · rintro ⟨find, hfind, format, hformat, showOffsets, hshow, maxDepth, hdepth, hoptions⟩
    obtain rfl := Option.some.inj hoptions
    exact ⟨find, hfind, hformat, hshow, hdepth⟩
  · rintro ⟨find, hfind, hformat, hshow, hdepth⟩
    exact ⟨find, hfind, _, hformat, _, hshow, _, hdepth, rfl⟩

theorem memberOr_headingsOf?_iff {doc : Table} {rules : HeadingRules} :
    memberOr {} headingsOf? (doc.get? "lexer") = some rules ↔
      (∀ v, doc.get? "lexer" = some v → v.IsGroup) ∧
      memberOr 6 levelOf? (doc.find "lexer" "max_header_level" 0) = some rules.maxLevel ∧
      memberOr true flagOf? (doc.find "lexer" "markdown_headings" 1) = some rules.markdown := by
  refine memberOr_group_iff headingsOf?_eq_some_iff ?_
  rintro ⟨maxLevel, markdown⟩
  simp [memberOr, eq_comm]

theorem memberOr_outputOf?_iff {doc : Table} {options : OutputOptions} :
    memberOr {} outputOf? (doc.get? "output") = some options ↔
      (∀ v, doc.get? "output" = some v → v.IsGroup) ∧
      memberOr .text formatOf? (doc.find "output" "format" 0) = some options.format ∧
      memberOr true flagOf? (doc.find "output" "show_offsets" 1) = some options.showOffsets ∧
      memberOr 0 depthOf? (doc.find "output" "max_depth" 2) = some options.maxDepth := by
  refine memberOr_group_iff outputOf?_eq_some_iff ?_
  rintro ⟨format, showOffsets, maxDepth⟩
  simp [memberOr, eq_comm]

/-! ## Reading files -/

theorem decode?_eq_some_iff_groups {doc : Table} {s : Settings} :
    decode? doc = some s ↔
      memberOr {} headingsOf? (doc.get? "lexer") = some s.headings ∧
      memberOr {} outputOf? (doc.get? "output") = some s.output := by
  simp only [decode?, Option.bind_eq_bind, Option.bind_eq_some_iff]
  constructor
  · rintro ⟨headings, hheadings, output, houtput, hs⟩
    obtain rfl := Option.some.inj hs
    exact ⟨hheadings, houtput⟩
  · rintro ⟨hheadings, houtput⟩
    exact ⟨_, hheadings, _, houtput, rfl⟩

theorem groupsFit_iff {doc : Table} :
    doc.GroupsFit ↔ (∀ v, doc.get? "lexer" = some v → v.IsGroup) ∧
      ∀ v, doc.get? "output" = some v → v.IsGroup := by
  constructor
  · intro h
    exact ⟨h .maxLevel, h .format⟩
  · rintro ⟨hlexer, houtput⟩ setting
    cases setting with
    | maxLevel => exact hlexer
    | markdown => exact hlexer
    | format => exact houtput
    | showOffsets => exact houtput
    | maxDepth => exact houtput

/-- Settings are read from a file exactly if its groups are groups and it gives the settings. -/
theorem decode?_eq_some_iff {doc : Table} {s : Settings} :
    decode? doc = some s ↔ doc.GroupsFit ∧ s.GivenBy doc := by
  have hgiven : s.GivenBy doc ↔ ∀ setting : Setting,
      memberOr setting.default setting.decode?
        (doc.find setting.group setting.key setting.place) = some (setting.of s) := by
    simp only [GivenBy, Setting.find_eq_entry?, Setting.memberOr_eq_some_iff]
  rw [decode?_eq_some_iff_groups, memberOr_headingsOf?_iff, memberOr_outputOf?_iff, groupsFit_iff,
    hgiven, Setting.forall_iff]
  constructor
  · rintro ⟨⟨hlexer, hlevel, hmarkdown⟩, houtput, hformat, hshow, hdepth⟩
    exact ⟨⟨hlexer, houtput⟩, hlevel, hmarkdown, hformat, hshow, hdepth⟩
  · rintro ⟨⟨hlexer, houtput⟩, hlevel, hmarkdown, hformat, hshow, hdepth⟩
    exact ⟨⟨hlexer, hlevel, hmarkdown⟩, houtput, hformat, hshow, hdepth⟩

/-- A file in which every entry stands for something gives settings. -/
theorem exists_givenBy {doc : Table}
    (h : ∀ (setting : Setting) (v : Value), setting.entry? doc = some v → ∃ x, setting.Stands v x) :
    ∃ s : Settings, s.GivenBy doc := by
  have hgiven : ∀ setting : Setting, ∃ x, setting.Given (setting.entry? doc) x := by
    intro setting
    cases hentry : setting.entry? doc with
    | none => exact ⟨setting.default, rfl⟩
    | some v => exact h setting v hentry
  obtain ⟨maxLevel, hlevel⟩ := hgiven .maxLevel
  obtain ⟨markdown, hmarkdown⟩ := hgiven .markdown
  obtain ⟨format, hformat⟩ := hgiven .format
  obtain ⟨showOffsets, hshow⟩ := hgiven .showOffsets
  obtain ⟨maxDepth, hdepth⟩ := hgiven .maxDepth
  refine ⟨⟨⟨maxLevel, markdown⟩, ⟨format, showOffsets, maxDepth⟩⟩, ?_⟩
  exact Setting.forall_iff.2 ⟨hlevel, hmarkdown, hformat, hshow, hdepth⟩

theorem decode?_eq_none_iff {doc : Table} : decode? doc = none ↔ doc.Malformed := by
  constructor
  · intro hnone
    -- if nothing were wrong with the file, it would give settings
    apply Classical.byContradiction
    intro hwell
    have hfit : doc.GroupsFit := fun setting v hv =>
      Classical.byContradiction fun hbad => hwell (Or.inl ⟨setting, v, hv, hbad⟩)
    obtain ⟨s, hs⟩ := exists_givenBy fun setting v hv =>
      Classical.byContradiction fun hbad => hwell (Or.inr ⟨setting, v, hv, hbad⟩)
    have hsome := decode?_eq_some_iff.2 ⟨hfit, hs⟩
    rw [hnone] at hsome
    simp at hsome
  · intro hbad
    cases hdecode : decode? doc with
    | none => rfl
    | some s =>
      obtain ⟨hfit, hgiven⟩ := decode?_eq_some_iff.1 hdecode
      rcases hbad with ⟨setting, v, hv, hgroup⟩ | ⟨setting, v, hv, hvalue⟩
      · exact absurd (hfit setting v hv) hgroup
      · have hstands := hgiven setting
        rw [hv] at hstands
        exact absurd ⟨_, hstands⟩ hvalue

/-! ## Reading texts -/

theorem ofToml_of_parse {t : Text} {doc : Table} (h : parse? t = some doc) :
    ofToml t = match decode? doc with
      | none => .error .malformed
      | some s => s.check.mapError .invalid := by
  cases hdecode : decode? doc with
  | none => simp [ofToml, h, hdecode]
  | some s => simp [ofToml, h, hdecode]

theorem ofToml_of_malformed {t : Text} (h : ∀ doc, parse? t = some doc → doc.Malformed) :
    ofToml t = .error .malformed := by
  cases hparse : parse? t with
  | none => simp [ofToml, hparse]
  | some doc => rw [ofToml_of_parse hparse, decode?_eq_none_iff.2 (h doc hparse)]

theorem ofToml_of_valid {t : Text} {doc : Table} {s : Settings} (h : parse? t = some doc)
    (hs : decode? doc = some s) (hpos : 1 ≤ s.headings.maxLevel) (hle : s.headings.maxLevel ≤ 6) :
    ofToml t = .ok s := by
  have hlevel : ¬ (s.headings.maxLevel = 0 ∨ 6 < s.headings.maxLevel) := by omega
  have hcheck : s.check = .ok s := if_neg hlevel
  rw [ofToml_of_parse h, hs]
  simp only [hcheck]
  rfl

theorem ofToml_of_invalid {t : Text} {doc : Table} {s : Settings} (h : parse? t = some doc)
    (hs : decode? doc = some s) (hlevel : s.headings.maxLevel = 0 ∨ 6 < s.headings.maxLevel) :
    ofToml t = .error (.invalid (.levelOutOfRange s.headings.maxLevel)) := by
  have hcheck : s.check = .error (.levelOutOfRange s.headings.maxLevel) := if_pos hlevel
  rw [ofToml_of_parse h, hs]
  simp only [hcheck]
  rfl

end Settings

end DocOutline
