import DocOutline.Proofs.WrittenOutline

set_option autoImplicit false

/-! # Runs of the two commands

`OutlineRun` lists the ways a run that writes an outline can go, each by what must hold of the files
for it, and every run goes exactly one of these ways (`Command.run_outline_iff`). A fault of the
settings file is reported whatever the flags and the document are; without one, a fault of the
document. Without either, the outline is written as the settings ask for it that count.

The command that writes tokens looks for settings and for the document in the same way, so the two
commands fail together and for the same reason. When they do not fail, what they write belongs
together: the lines of the token dump that are about headers stand for the sections of the outline,
one for one and in reading order, and the outline is written with those of the sections that are above
the depth (`Command.outline_tokens_agree`). -/

namespace DocOutline

open Text Toml

/-! ## Runs that write an outline -/

/-- How a run that writes an outline can go. -/
inductive OutlineRun (files : Files) (input : Path) (config : Option Path) (flags : Flags) :
    Except Failure Text → Prop
  /-- The settings file is at fault. -/
  | configFault {path : Path} {e : ConfigError}
      (hchoice : ConfigChoice files input config (some path)) (hfault : ConfigFault files path e) :
      OutlineRun files input config flags (.error (.config path e))
  /-- The document is at fault, and the settings file is not. -/
  | inputFault {doc : Option Table} {failure : Failure}
      (hdoc : ConfigDocument files input config doc) (hfault : InputFault files input failure) :
      OutlineRun files input config flags (.error failure)
  /-- The outline is written as the settings ask for it that count. -/
  | written {doc : Option Table} {settings : Settings} {text written : Text}
      (hdoc : ConfigDocument files input config doc)
      (hsettings : Settings.Effective flags doc settings)
      (htext : files.readText input = .ok text)
      (hwritten : (Document.ofText settings.headings text).outline.WrittenAs text settings.output
        written) :
      OutlineRun files input config flags (.ok written)

namespace OutlineRun

variable {files : Files} {input : Path} {config : Option Path} {flags : Flags}

theorem run_eq {result : Except Failure Text} (h : OutlineRun files input config flags result) :
    Command.run files (.outline input config flags) = result := by
  rw [Command.run_outline]
  cases h with
  | configFault hchoice hfault =>
    have hload := hchoice.loadSettings_eq.trans hfault.loadConfig_eq
    rw [hload]
    rfl
  | inputFault hdoc hfault =>
    obtain ⟨s, hload, -⟩ := hdoc.exists_settings
    rw [hload, hfault.readInput_eq]
    rfl
  | written hdoc hsettings htext hwritten =>
    obtain ⟨s, hload, heffective⟩ := hdoc.exists_settings
    rw [Document.writtenAs_iff] at hwritten
    rw [hload, readInput_of_readText htext, hwritten, hsettings.unique (heffective flags)]
    rfl

theorem exists_result (files : Files) (input : Path) (config : Option Path) (flags : Flags) :
    ∃ result, OutlineRun files input config flags result := by
  rcases configFault_or_document files input config with ⟨path, e, hchoice, hfault⟩ | ⟨doc, hdoc⟩
  · exact ⟨_, .configFault hchoice hfault⟩
  · rcases inputFault_or_readText files input with ⟨failure, hfault⟩ | ⟨text, htext⟩
    · exact ⟨_, .inputFault hdoc hfault⟩
    · obtain ⟨s, -, heffective⟩ := hdoc.exists_settings
      exact ⟨_, .written hdoc (heffective flags) htext ((Document.writtenAs_iff ..).2 rfl)⟩

end OutlineRun

namespace Command

/-- **Settings and faults.** For all files, whatever document, settings file and flags a run that
    writes an outline is given, it goes exactly one of the ways that `OutlineRun` lists. -/
theorem run_outline_iff (files : Files) (input : Path) (config : Option Path) (flags : Flags)
    (result : Except Failure Text) :
    run files (.outline input config flags) = result ↔
      OutlineRun files input config flags result := by
  constructor
  · rintro rfl
    obtain ⟨result, hresult⟩ := OutlineRun.exists_result files input config flags
    rwa [hresult.run_eq]
  · exact OutlineRun.run_eq

/-! ## Runs of both commands -/

/-- **Agreement of the two commands.** For all files, whatever document, settings file and flags are
    given: either both commands fail, for the same reason, or both succeed. Then the lines of the
    dump that are about headers have, one by one and in order, the levels and starts of the sections
    of the outline before it is pruned. What is written for the outline are the lines of the sections
    above the depth, or JSON from which the pruned outline can be read back; and if a depth is set,
    the sections that are left by pruning are those above it. -/
theorem outline_tokens_agree (files : Files) (input : Path) (config : Option Path)
    (flags : Flags) :
    (∃ failure, run files (.tokens input config) = .error failure ∧
      run files (.outline input config flags) = .error failure) ∨
    ∃ settings text dump written, loadSettings files config input = .ok settings ∧
      readInput files input = .ok text ∧
      run files (.tokens input config) = .ok dump ∧
      run files (.outline input config flags) = .ok written ∧
      let outline := (Document.ofText settings.headings text).outline
      let options := (settings.override flags).output
      outline.WrittenAs text options written ∧
      List.Forall₂ Row.HasHeaderLine (headerLines dump) (Forest.walk outline) ∧
      (0 < options.maxDepth → Forest.walk (outline.prune options.maxDepth)
        = Row.above options.maxDepth (Forest.walk outline)) := by
  rw [run_tokens, run_outline]
  cases hload : loadSettings files config input with
  | error failure => exact Or.inl ⟨failure, rfl, rfl⟩
  | ok settings =>
    cases hread : readInput files input with
    | error failure => exact Or.inl ⟨failure, rfl, rfl⟩
    | ok text =>
      refine Or.inr ⟨settings, text, _, _, rfl, rfl, rfl, rfl, ?_, ?_, ?_⟩
      · exact (Document.writtenAs_iff ..).2 rfl
      · exact (Document.ofText settings.headings text).forall₂_headerLines_walk
      · intro hdepth
        exact Forest.walk_prune hdepth _

/-- A document with no settings file beside it, and a flag that cuts the outline below its roots:
    the two header lines are those of the two sections, of which one is written. -/
theorem outline_tokens_agree_pruned :
    let text := ['=', ' ', 'A', '\n', '=', '=', ' ', 'B']
    let files : Files := fun path =>
      if path = "a" then .ok (.file (String.ofList text).toUTF8) else .error .notFound
    let flags : Flags := { maxDepth := some 1 }
    let outline := (Document.ofText {} text).outline
    0 < (Settings.override {} flags).output.maxDepth ∧
    ∃ dump, run files (.tokens "a" none) = .ok dump ∧
      List.Forall₂ Row.HasHeaderLine (headerLines dump) (Forest.walk outline) ∧
      (Forest.walk outline).length = 2 ∧
      run files (.outline "a" none flags) = .ok "A [level 1] 0..=7 (1:1)\n".toList ∧
      Forest.walk (outline.prune 1) = Row.above 1 (Forest.walk outline) ∧
      (Row.above 1 (Forest.walk outline)).length = 1 := by
  intro text files flags outline
  have hload : loadSettings files none "a" = .ok {} := rfl
  have hread : readInput files "a" = .ok text := readInput_of_readText (Files.readText_of_file rfl)
  have hwalk : Forest.walk outline = Forest.rows 0 outline := Forest.walk_eq_rows outline
  rcases outline_tokens_agree files "a" none flags with
    ⟨failure, hfail, -⟩ | ⟨settings, text', dump, written, hload', hread', hdump, hwritten, hrest⟩
  · rw [run_tokens, hload, hread] at hfail
    exact absurd hfail (by simp [Except.bind, Except.map])
  · obtain rfl := Except.ok.inj (hload.symm.trans hload')
    obtain rfl := Except.ok.inj (hread.symm.trans hread')
    obtain ⟨hform, hlines, hpruned⟩ := hrest
    have hline : written = "A [level 1] 0..=7 (1:1)\n".toList := by
      cases hform with
      | tree => decide
      | json hformat => exact absurd hformat (by decide)
    rw [hline] at hwritten
    refine ⟨by decide, dump, hdump, hlines, ?_, hwritten, hpruned (by decide), ?_⟩
    · rw [hwalk]
      rfl
    · rw [hwalk]
      rfl

end Command

end DocOutline
