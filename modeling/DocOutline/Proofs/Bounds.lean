import DocOutline.Proofs.Configuration
import DocOutline.Proofs.Flattening
import DocOutline.Proofs.HeaderLines
import DocOutline.Proofs.LineRoles
import DocOutline.Proofs.Pruning
import DocOutline.Proofs.Restriction

set_option autoImplicit false

/-! # Bounds of levels and depths

The level of a section is the number of markers its heading line starts with, and lies between 1
and the deepest level that the rules admit. Since levels grow from a section to its children, they
bound the depth too: a section has fewer sections around it than its level says
(`Forest.depth_lt_level`). So no way down in an outline is longer than the deepest level, and
pruning to that depth takes nothing away.

Settings that come from a file have been checked, and admit at most six levels. What a command
writes therefore stays within six levels, whatever the document (`Document.outline_bounded`). -/

namespace DocOutline

open Text

/-! ## Heading lines -/

/-- A line of the text starts at byte `pos`, with a run of `level` characters that mark a heading. -/
def Text.MarkedAt (text : Text) (pos level : Nat) : Prop :=
  ∃ before piece after marker, pieces text = before ++ piece :: after ∧
    byteLength before.flatten = pos ∧ (marker = '=' ∨ marker = '#') ∧
    (stripped piece).head? = some marker ∧ run marker (stripped piece) = level

/-- A header of a token stream stands for a line with as many markers as its level says. -/
theorem HeadingRules.header_bounds {rules : HeadingRules} {text : Text} {token : Token}
    {level : Nat} (hmem : token ∈ rules.stream text) (hkind : token.kind = .header level) :
    1 ≤ level ∧ level ≤ rules.maxLevel ∧ MarkedAt text token.start level := by
  have hlength : byteLength text = 0 + byteLength (pieces text).flatten := by
    rw [flatten_pieces, Nat.zero_add]
  obtain ⟨before, piece, after, hlines, hline | hline⟩ :=
    (rules.stream_reads text).exists_line _ hlength token hmem (by simp [hkind])
  · obtain ⟨level', hclass, rfl⟩ := hline
    obtain rfl : level' = level := by simpa using hkind
    obtain ⟨marker, hshape, hadmits⟩ := HeadingRules.classify_eq_header_iff.1 hclass
    exact ⟨hshape.level_pos, (HeadingRules.admits_iff.1 hadmits).1, before, piece, after, marker,
      hlines, (Nat.zero_add _).symm, hshape.marker_ok, hshape.head?, hshape.run_eq⟩
  · obtain ⟨_, _, _, _, _, _, _, rfl⟩ := hline
    simp at hkind

/-- Every section comes from a header. -/
theorem Document.exists_header_of_mem {d : Document} {row : Row}
    (h : row ∈ Forest.walk d.outline) : ∃ t ∈ d.tokens, d.HeaderOf t row := by
  obtain ⟨hlength, hpairs⟩ := List.forall₂_iff_get.1 d.forall₂_headers_walk
  obtain ⟨i, hi, rfl⟩ := List.getElem_of_mem h
  have hheader : i < d.headers.length := by rw [hlength]; exact hi
  exact ⟨_, (List.mem_filter.1 (List.get_mem d.headers ⟨i, hheader⟩)).1, hpairs i hheader hi⟩

/-! ## Depths -/

/-- The roots of a well-levelled forest being deeper than a depth, so is every section than its
    own: from a section to its children the depth grows by one and the level by at least one. -/
theorem Forest.depth_lt_level :
    ∀ (f : List Section) (depth : Nat), Forest.WellLevelled f → (∀ s ∈ f, depth < s.level) →
      ∀ row ∈ Forest.rows depth f, row.depth < row.node.level
  | [], _, _, _, row, hrow => by simp [Forest.rows] at hrow
  | ⟨name, level, start, stop, children⟩ :: rest, depth, hf, hroots, row, hrow => by
    obtain ⟨⟨hdeeper, hchildren⟩, -, hrest⟩ := hf
    obtain ⟨hlevel, hroots⟩ := List.forall_mem_cons.1 hroots
    rw [Forest.rows, Section.rows, List.cons_append] at hrow
    rcases List.mem_cons.1 hrow with rfl | hrow
    · exact hlevel
    · rcases List.mem_append.1 hrow with hinside | hbeside
      · exact Forest.depth_lt_level children (depth + 1) hchildren
          (fun child hchild => Nat.lt_of_le_of_lt hlevel (hdeeper child hchild)) row hinside
      · exact Forest.depth_lt_level rest depth hrest hroots row hbeside

/-- A way down in a forest: a root, then one of its children, and so on. -/
inductive Forest.Descends : Forest → List Section → Prop
  | nil (f : Forest) : Forest.Descends f []
  | cons {f : Forest} {s : Section} {path : List Section} (hroot : s ∈ f)
      (hpath : Forest.Descends s.children path) : Forest.Descends f (s :: path)

/-- A way down passes a row at each depth, so it ends before a depth that no row reaches. -/
theorem Forest.Descends.length_le {f : Forest} {path : List Section} (h : Forest.Descends f path)
    {depth bound : Nat} (hdepth : depth ≤ bound)
    (hrows : ∀ row ∈ Forest.rows depth f, row.depth < bound) : depth + path.length ≤ bound := by
  induction h generalizing depth with
  | nil => exact hdepth
  | cons hroot _ ih =>
    obtain ⟨hown, hinside⟩ := Forest.mem_rows_of_mem hroot
    have hlt : depth < bound := hrows _ hown
    have hrest := ih hlt fun row hrow => hrows row (hinside row hrow)
    rw [List.length_cons]
    omega

/-- The sections of a forest have levels from 1 to `bound`, and fewer than `bound` sections around
    them. -/
structure Forest.Bounded (bound : Nat) (f : Forest) : Prop where
  level_pos : ∀ row ∈ Forest.walk f, 1 ≤ row.node.level
  level_le : ∀ row ∈ Forest.walk f, row.node.level ≤ bound
  depth_lt : ∀ row ∈ Forest.walk f, row.depth < bound

namespace Forest.Bounded

variable {bound : Nat} {f : Forest}

theorem mono (h : Bounded bound f) {wider : Nat} (hle : bound ≤ wider) : Bounded wider f :=
  ⟨h.level_pos, fun row hrow => Nat.le_trans (h.level_le row hrow) hle,
    fun row hrow => Nat.lt_of_lt_of_le (h.depth_lt row hrow) hle⟩

theorem prune (h : Bounded bound f) (maxDepth : Nat) : Bounded bound (f.prune maxDepth) := by
  refine ⟨fun row hrow => ?_, fun row hrow => ?_, fun row hrow => ?_⟩
  all_goals obtain ⟨full, hfull, children, rfl⟩ := exists_row_of_mem_walk_prune hrow
  · exact h.level_pos full hfull
  · exact h.level_le full hfull
  · exact h.depth_lt full hfull

theorem length_le (h : Bounded bound f) {path : List Section} (hpath : Descends f path) :
    path.length ≤ bound := by
  have hrows := h.depth_lt
  rw [walk_eq_rows] at hrows
  simpa using hpath.length_le (Nat.zero_le bound) hrows

theorem prune_eq_self (h : Bounded bound f) {maxDepth : Nat} (hle : bound ≤ maxDepth) :
    f.prune maxDepth = f :=
  Forest.prune_eq_self fun row hrow => Nat.lt_of_lt_of_le (h.depth_lt row hrow) hle

end Forest.Bounded

theorem Document.bounded_outline (rules : HeadingRules) (text : Text) :
    Forest.Bounded rules.maxLevel (Document.ofText rules text).outline := by
  have hlevel : ∀ row ∈ Forest.walk (Document.ofText rules text).outline,
      1 ≤ row.node.level ∧ row.node.level ≤ rules.maxLevel := by
    intro row hrow
    obtain ⟨t, hmem, hof⟩ := Document.exists_header_of_mem hrow
    obtain ⟨hpos, hle, -⟩ := HeadingRules.header_bounds hmem hof.kind
    exact ⟨hpos, hle⟩
  refine ⟨fun row hrow => (hlevel row hrow).1, fun row hrow => (hlevel row hrow).2, ?_⟩
  intro row hrow
  have hroots : ∀ s ∈ (Document.ofText rules text).outline, 0 < s.level := by
    intro s hs
    refine (hlevel ⟨0, s⟩ ?_).1
    rw [Forest.walk_eq_rows]
    exact (Forest.mem_rows_of_mem hs).1
  have hdepth : row.depth < row.node.level := by
    rw [Forest.walk_eq_rows] at hrow
    exact Forest.depth_lt_level _ 0 (Document.wellLevelled_outline _) hroots row hrow
  exact Nat.lt_of_lt_of_le hdepth (hlevel row hrow).2

theorem Document.markedAt_of_mem {rules : HeadingRules} {text : Text} {row : Row}
    (h : row ∈ Forest.walk (Document.ofText rules text).outline) :
    MarkedAt text row.node.start row.node.level := by
  obtain ⟨t, hmem, hof⟩ := Document.exists_header_of_mem h
  obtain ⟨-, -, hmarked⟩ := HeadingRules.header_bounds hmem hof.kind
  rwa [hof.start] at hmarked

/-! ## Checked settings -/

/-- The rules admit the levels from 1 to some level that is no deeper than six. -/
def HeadingRules.InRange (rules : HeadingRules) : Prop := 1 ≤ rules.maxLevel ∧ rules.maxLevel ≤ 6

theorem mapError_eq_ok_iff {ε ε' α : Type} {x : Except ε α} {f : ε → ε'} {a : α} :
    x.mapError f = .ok a ↔ x = .ok a := by
  cases x with
  | error e => simp
  | ok b => simp

theorem Settings.inRange_of_ofToml {text : Text} {s : Settings} (h : Settings.ofToml text = .ok s) :
    s.headings.InRange := by
  unfold Settings.ofToml at h
  split at h
  · simp at h
  · rw [mapError_eq_ok_iff] at h
    unfold Settings.check deepestLevel at h
    split at h
    · simp at h
    · obtain rfl := Except.ok.inj h
      exact ⟨by omega, by omega⟩

theorem inRange_of_loadConfig {files : Files} {path : Path} {s : Settings}
    (h : loadConfig files path = .ok s) : s.headings.InRange := by
  unfold loadConfig at h
  split at h
  · simp at h
  · rw [mapError_eq_ok_iff] at h
    exact Settings.inRange_of_ofToml h

/-- The settings of a run come from a file that was checked, or are the defaults. -/
theorem inRange_of_loadSettings {files : Files} {config : Option Path} {input : Path} {s : Settings}
    (h : loadSettings files config input = .ok s) : s.headings.InRange := by
  obtain ⟨chosen, hchoice⟩ := exists_configChoice files input config
  rw [hchoice.loadSettings_eq] at h
  cases chosen with
  | some path => exact inRange_of_loadConfig h
  | none =>
    obtain rfl := Except.ok.inj h
    exact ⟨by decide, by decide⟩

/-! ## Bounds of every run -/

/-- What a command writes, by its settings and the text of its document. -/
def Command.written : Command → Settings → Text → Text
  | .outline _ _ flags, s, text => outlineText (s.override flags) text
  | .tokens _ _, s, text => tokensText s text

/-- A run that succeeds has loaded settings and read a document. -/
theorem Command.exists_of_run {files : Files} {command : Command} {output : Text}
    (h : command.run files = .ok output) :
    ∃ s text, loadSettings files command.config command.input = .ok s ∧
      readInput files command.input = .ok text ∧ output = command.written s text := by
  have hrun : command.run files = (loadSettings files command.config command.input).bind
      fun s => (readInput files command.input).map (command.written s) := by
    cases command with
    | outline input config flags => exact run_outline files input config flags
    | tokens input config => exact run_tokens files input config
  rw [hrun] at h
  cases hload : loadSettings files command.config command.input with
  | error failure => simp [hload, Except.bind] at h
  | ok s =>
    cases hread : readInput files command.input with
    | error failure => simp [hload, hread, Except.bind, Except.map] at h
    | ok text =>
      simp only [hload, hread, Except.bind, Except.map, Except.ok.injEq] at h
      exact ⟨s, text, rfl, rfl, h.symm⟩

/-- **Bounds of levels and depths.** For all heading rules and texts, the sections of the outline
    have levels from 1 to the deepest one that the rules admit, each the number of markers that its
    heading line starts with; no way down is longer than that, and pruning at that depth or below
    changes nothing. Settings that are read from a text or a file, and those of every run that
    succeeds, admit between one and six levels. So what is left of an outline when it is written
    has levels from 1 to 6, and at most five sections around each one. -/
theorem Document.outline_bounded :
    (∀ (rules : HeadingRules) (text : Text),
      let outline := (Document.ofText rules text).outline
      Forest.Bounded rules.maxLevel outline ∧
      (∀ row ∈ Forest.walk outline, MarkedAt text row.node.start row.node.level) ∧
      (∀ path, Forest.Descends outline path → path.length ≤ rules.maxLevel) ∧
      ∀ maxDepth, rules.maxLevel ≤ maxDepth → outline.prune maxDepth = outline) ∧
    (∀ text s, Settings.ofToml text = .ok s → s.headings.InRange) ∧
    (∀ files path s, loadConfig files path = .ok s → s.headings.InRange) ∧
    (∀ files (command : Command) output, command.run files = .ok output →
      ∃ s, loadSettings files command.config command.input = .ok s ∧ s.headings.InRange) ∧
    ∀ files input config flags output,
      Command.run files (.outline input config flags) = .ok output →
      ∃ s text, loadSettings files config input = .ok s ∧ readInput files input = .ok text ∧
        let options := (s.override flags).output
        let printed := (Document.ofText s.headings text).outline.prune options.maxDepth
        (output = match options.format with
          | .text => printed.renderTree text options.showOffsets
          | .json => printed.renderJson) ∧
        Forest.Bounded 6 printed ∧
        ∀ path, Forest.Descends printed path → path.length ≤ 6 := by
  refine ⟨?_, ?_, ?_, ?_, ?_⟩
  · intro rules text outline
    have hbounded := Document.bounded_outline rules text
    refine ⟨hbounded, ?_, ?_, ?_⟩
    · intro row hrow
      exact Document.markedAt_of_mem hrow
    · intro path hpath
      exact hbounded.length_le hpath
    · intro maxDepth hle
      exact hbounded.prune_eq_self hle
  · intro text s hs
    exact Settings.inRange_of_ofToml hs
  · intro files path s hs
    exact inRange_of_loadConfig hs
  · intro files command output hrun
    obtain ⟨s, text, hload, -⟩ := Command.exists_of_run hrun
    exact ⟨s, hload, inRange_of_loadSettings hload⟩
  · intro files input config flags output hrun
    obtain ⟨s, text, hload, hread, rfl⟩ := Command.exists_of_run hrun
    have hsix := (Document.bounded_outline s.headings text).mono (inRange_of_loadSettings hload).2
    have hprinted := hsix.prune (s.override flags).output.maxDepth
    exact ⟨s, text, hload, hread, rfl, hprinted, fun path hpath => hprinted.length_le hpath⟩

/-- A document whose settings file admits two levels, and its outline, which has both. -/
theorem Document.outline_bounded_two :
    let text := ['=', ' ', 'A', '\n', '=', '=', ' ', 'B']
    let toml := ['l', 'e', 'x', 'e', 'r', '=', '[', '2', ']']
    let files : Files := fun path =>
      if path = "a" then .ok (.file (String.ofList text).toUTF8)
      else if path = "c" then .ok (.file (String.ofList toml).toUTF8)
      else .error .notFound
    let s : Settings := { headings := { maxLevel := 2 } }
    let outline := (Document.ofText s.headings text).outline
    (∃ row ∈ Forest.walk outline, row.node.level = 2 ∧ MarkedAt text 4 2) ∧
    (∃ path, Forest.Descends outline path ∧ path.length = 2 ∧ path.length ≤ s.headings.maxLevel) ∧
    outline.prune 2 = outline ∧
    (Settings.ofToml toml = .ok s ∧ s.headings.InRange) ∧
    (loadConfig files "c" = .ok s ∧ s.headings.InRange) ∧
    Command.run files (.outline "a" (some "c") {}) = .ok (outline.renderTree text true) ∧
    Forest.Bounded 6 outline := by
  intro text toml files s outline
  obtain ⟨houtline, htoml, hconfig, hsettings, hprinted⟩ := Document.outline_bounded
  obtain ⟨-, hmarked, hpaths, hprune⟩ := houtline s.headings text
  have hdecode : Settings.ofToml toml = .ok s := rfl
  have hload : loadConfig files "c" = .ok s := by
    have hread : files.readText "c" = .ok toml := Files.readText_of_file rfl
    simp only [loadConfig, hread, hdecode, mapError_ok]
  have hread : readInput files "a" = .ok text := readInput_of_readText (Files.readText_of_file rfl)
  have hrun : Command.run files (.outline "a" (some "c") {})
      = .ok (outline.renderTree text true) := by
    have hload' : loadSettings files (some "c") "a" = .ok s := hload
    rw [Command.run_outline, hload', hread]
    rfl
  have hshape : outline = [⟨['A'], 1, 0, 7, [⟨['B'], 2, 4, 7, []⟩]⟩] := rfl
  have hpath : Forest.Descends outline [⟨['A'], 1, 0, 7, [⟨['B'], 2, 4, 7, []⟩]⟩,
      ⟨['B'], 2, 4, 7, []⟩] := by
    rw [hshape]
    exact .cons (List.mem_singleton_self _) (.cons (List.mem_singleton_self _) (.nil _))
  have hinner : ⟨1, ⟨['B'], 2, 4, 7, []⟩⟩ ∈ Forest.walk outline := by
    rw [Forest.walk_eq_rows, hshape]
    exact List.mem_cons_of_mem _ (List.mem_singleton_self _)
  refine ⟨⟨_, hinner, rfl, hmarked _ hinner⟩, ⟨_, hpath, rfl, hpaths _ hpath⟩,
    hprune 2 (Nat.le_refl 2), ⟨hdecode, htoml _ _ hdecode⟩, ⟨hload, hconfig _ _ _ hload⟩, hrun, ?_⟩
  obtain ⟨s', text', hload', hread', -, hbounded, -⟩ := hprinted _ _ _ _ _ hrun
  obtain rfl := Except.ok.inj (hload.symm.trans hload')
  obtain rfl := Except.ok.inj (hread.symm.trans hread')
  exact hbounded

end DocOutline
