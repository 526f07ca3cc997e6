import DocOutline.Section.Nesting

set_option autoImplicit false

/-! # The pass over the headings

An outline is built from the first heading to the last, with a stack of open sections. It is easier
to describe from the last heading to the first: a heading takes the roots in front of it for its
children as long as they are deeper; what is left stands next to it, and begins with the heading that
ends it (`Forest.ofHeadings`). The two ways lead to the same forest (`Forest.scan_eq_ofHeadings`).

For this the pass is stopped before any heading. What is open and what is closed by then can be put
in front of the outline of the headings that are still to come, and the forest that this gives is the
same before every heading (`Scan.outcome_enter`). That a closed section belongs inside the one that is
open around it holds because of the order of the stack: each open section is deeper than those around
it (`Scan.Nested`). -/

namespace DocOutline

/-! ## From the last heading to the first -/

/-- Last byte of a section that the sections `later` follow in a document of `length` bytes. -/
def Forest.stopBefore (length : Nat) (later : Forest) : Nat :=
  match later with
  | [] => length - 1
  | s :: _ => s.start - 1

/-- Puts a heading in front of a forest: the leading roots that are deeper become its children. -/
def Heading.nest (length : Nat) (h : Heading) (later : Forest) : Forest :=
  let deeper := fun s : Section => decide (h.level < s.level)
  let rest := later.dropWhile deeper
  ⟨h.name, h.level, h.start, Forest.stopBefore length rest, later.takeWhile deeper⟩ :: rest

/-- The outline of the headings of a document of `length` bytes. -/
def Forest.ofHeadings (length : Nat) (headings : List Heading) : Forest :=
  headings.foldr (Heading.nest length) []

/-! ## Open sections in front of a forest -/

namespace OpenSection

/-- Puts an open section in front of a forest: the leading roots that are deeper go inside it, behind
    those that are there. -/
def nest (length : Nat) (s : OpenSection) (later : Forest) : Forest :=
  let deeper := fun t : Section => decide (s.level < t.level)
  let rest := later.dropWhile deeper
  ⟨s.heading.name, s.level, s.heading.start, Forest.stopBefore length rest,
    s.inside.reverse ++ later.takeWhile deeper⟩ :: rest

/-- In front of a root that is not deeper, a section is closed. -/
theorem nest_of_head {s : OpenSection} {later : Forest}
    (h : ∀ t ∈ later.head?, t.level ≤ s.level) (length : Nat) :
    s.nest length later = s.close (Forest.stopBefore length later) :: later := by
  cases later with
  | nil => simp [nest, close, level]
  | cons t later =>
    have hstop : ¬ decide (s.level < t.level) = true := by simpa using h t rfl
    simp only [nest, List.takeWhile_cons, List.dropWhile_cons, if_neg hstop, List.append_nil]
    rfl

/-- A root that is deeper goes inside. -/
theorem nest_cons {s : OpenSection} {t : Section} (h : s.level < t.level) (length : Nat)
    (later : Forest) : s.nest length (t :: later) = (s.add t).nest length later := by
  have hdeeper : decide (s.level < t.level) = true := decide_eq_true h
  have hinside : (s.add t).inside.reverse = s.inside.reverse ++ [t] := by simp [add]
  rw [nest, nest, hinside, List.append_assoc, List.singleton_append]
  simp only [List.takeWhile_cons, List.dropWhile_cons, if_pos hdeeper]
  rfl

end OpenSection

/-! ## The stack -/

namespace Scan

/-- Every open section is deeper than the ones around it. -/
def Nested (scan : Scan) : Prop := scan.stack.Pairwise fun inner outer => outer.level < inner.level

/-- The forest that a pass leads to if `later` is the outline of the headings still to come. -/
def outcome (length : Nat) (scan : Scan) (later : Forest) : Forest :=
  scan.roots.reverse ++ scan.stack.foldl (fun f s => s.nest length f) later

/-- Closing leaves the sections open that are shallower, and keeps the order of the stack. -/
theorem nested_closeDown {level stop : Nat} {roots : Forest} {top : OpenSection}
    {outer : List OpenSection} (h : Nested ⟨top :: outer, roots⟩) :
    Nested (closeDown level stop roots top outer) ∧
      ∀ s ∈ (closeDown level stop roots top outer).stack, s.level < level := by
  induction outer generalizing top with
  | nil =>
    unfold closeDown
    by_cases hlevel : level ≤ top.level
    · simp [Nested, hlevel]
    · simp [Nested, hlevel, Nat.lt_of_not_le hlevel]
  | cons parent outer ih =>
    unfold closeDown
    obtain ⟨htop, hparent⟩ := List.pairwise_cons.1 h
    by_cases hlevel : level ≤ top.level
    · rw [if_pos hlevel]
      exact ih (List.pairwise_cons.2 (List.pairwise_cons.1 hparent))
    · rw [if_neg hlevel]
      refine ⟨h, List.forall_mem_cons.2 ⟨Nat.lt_of_not_le hlevel, ?_⟩⟩
      intro s hs
      exact Nat.lt_trans (htop s hs) (Nat.lt_of_not_le hlevel)

theorem nested_close {scan : Scan} (h : scan.Nested) (level stop : Nat) :
    (scan.close level stop).Nested ∧ ∀ s ∈ (scan.close level stop).stack, s.level < level := by
  obtain ⟨stack, roots⟩ := scan
  cases stack with
  | nil => exact ⟨h, by simp [close]⟩
  | cons top outer => exact nested_closeDown h

/-- The stack stays in order when a heading is entered. -/
theorem nested_enter {scan : Scan} (h : scan.Nested) (heading : Heading) :
    (scan.enter heading).Nested := by
  obtain ⟨hnested, hlevel⟩ := nested_close h heading.level (heading.start - 1)
  exact List.pairwise_cons.2 ⟨hlevel, hnested⟩

theorem nested_foldl {scan : Scan} (h : scan.Nested) (headings : List Heading) :
    (headings.foldl enter scan).Nested := by
  induction headings generalizing scan with
  | nil => exact h
  | cons heading headings ih => exact ih (nested_enter h heading)

/-! ## The outcome -/

section Outcome

variable {length level : Nat} {later : Forest}

/-- Sections may be closed in front of a root that is not deeper. -/
theorem outcome_closeDown (hlater : ∀ t ∈ later.head?, t.level ≤ level) {roots : Forest}
    {top : OpenSection} {outer : List OpenSection} (h : Nested ⟨top :: outer, roots⟩) :
    (closeDown level (Forest.stopBefore length later) roots top outer).outcome length later
      = outcome length ⟨top :: outer, roots⟩ later := by
  -- the innermost section is closed on the byte on which the forest says that it ends
  have hclosed : ∀ s : OpenSection, level ≤ s.level →
      s.nest length later = s.close (Forest.stopBefore length later) :: later := by
    intro s hs
    refine OpenSection.nest_of_head ?_ length
    intro t ht
    exact Nat.le_trans (hlater t ht) hs
  induction outer generalizing top with
  | nil =>
    unfold closeDown
    by_cases hlevel : level ≤ top.level
    · simp [outcome, hlevel, hclosed top hlevel]
    · simp [hlevel]
  | cons parent outer ih =>
    unfold closeDown
    obtain ⟨htop, hparent⟩ := List.pairwise_cons.1 h
    by_cases hlevel : level ≤ top.level
    · -- what is closed is deeper than the section around it, so that one takes it in
      have hdeeper : parent.level < (top.close (Forest.stopBefore length later)).level :=
        htop parent List.mem_cons_self
      have hnested : Nested ⟨parent.add (top.close (Forest.stopBefore length later)) :: outer, roots⟩ :=
        List.pairwise_cons.2 (List.pairwise_cons.1 hparent)
      rw [if_pos hlevel, ih hnested]
      simp only [outcome, List.foldl_cons]
      rw [hclosed top hlevel, OpenSection.nest_cons hdeeper]
    · rw [if_neg hlevel]

theorem outcome_close {scan : Scan} (h : scan.Nested)
    (hlater : ∀ t ∈ later.head?, t.level ≤ level) :
    (scan.close level (Forest.stopBefore length later)).outcome length later
      = scan.outcome length later := by
  obtain ⟨stack, roots⟩ := scan
  cases stack with
  | nil => rfl
  | cons top outer => exact outcome_closeDown hlater h

/-- A heading that is entered is put in front of what comes after it. -/
theorem outcome_enter {scan : Scan} (h : scan.Nested) (heading : Heading) :
    (scan.enter heading).outcome length later
      = scan.outcome length (heading.nest length later) := by
  have hhead : ∀ t ∈ (heading.nest length later).head?, t.level ≤ heading.level := by
    intro t ht
    obtain rfl := Option.some.inj ht
    exact Nat.le_refl heading.level
  -- a section that has just been opened has nothing inside it, so it is put in front like a heading
  calc (scan.enter heading).outcome length later
      = (scan.close heading.level (heading.start - 1)).outcome length
          (heading.nest length later) := rfl
    _ = scan.outcome length (heading.nest length later) := outcome_close h hhead

theorem outcome_foldl {scan : Scan} (h : scan.Nested) (headings : List Heading) :
    (headings.foldl enter scan).outcome length []
      = scan.outcome length (Forest.ofHeadings length headings) := by
  induction headings generalizing scan with
  | nil => rfl
  | cons heading headings ih =>
    rw [List.foldl_cons, ih (nested_enter h heading), outcome_enter h]
    rfl

/-- At the end of the document everything is closed. -/
theorem finish_eq_outcome {scan : Scan} (h : scan.Nested) :
    scan.finish length = scan.outcome length [] := by
  obtain ⟨-, hlevel⟩ := nested_close h 0 (length - 1)
  have hempty : (scan.close 0 (length - 1)).stack = [] := by
    rw [List.eq_nil_iff_forall_not_mem]
    intro s hs
    exact Nat.not_lt_zero _ (hlevel s hs)
  have hlast : ∀ t ∈ ([] : Forest).head?, t.level ≤ 0 := by simp
  have hclose : (scan.close 0 (length - 1)).outcome length [] = scan.outcome length [] :=
    outcome_close h hlast
  rw [← hclose, outcome, hempty, List.foldl_nil, List.append_nil, finish]

end Outcome

end Scan

/-- The pass over the headings builds what they build from the last one to the first. -/
theorem Forest.scan_eq_ofHeadings (length : Nat) (headings : List Heading) :
    Forest.scan length headings = Forest.ofHeadings length headings := by
  have hstart : Scan.Nested {} := List.Pairwise.nil
  rw [Forest.scan, Scan.finish_eq_outcome (Scan.nested_foldl hstart headings),
    Scan.outcome_foldl hstart]
  rfl

namespace Document

theorem outline_eq (d : Document) :
    d.outline = Forest.ofHeadings (Text.byteLength d.text) d.headings :=
  Forest.scan_eq_ofHeadings _ _

theorem outline_ofText (rules : HeadingRules) (text : Text) :
    (ofText rules text).outline
      = Forest.ofHeadings (Text.byteLength text) (ofText rules text).headings :=
  outline_eq _

end Document

end DocOutline
