import DocOutline.LineKind
import DocOutline.Proofs.Bytes

set_option autoImplicit false

/-! # The grammar of lines

What a line is can be said without running anything. A heading is a run of markers, a blank and
anything (`HeadingShape`); a delimiter, without the white space at its end, is a run of dashes, of
dots, or of backticks with an info string (`DelimiterShape`). `HeadingRules.classify` accepts
exactly these (`HeadingRules.classify_exact`).

Two functions look for runs of a fence's character, one to open a block and one to close it. They
fit together: what closes a block could open one, and a delimiter without an info string would close
the block that it opens. -/

namespace DocOutline

open Text

/-! ## Runs -/

namespace Text

theorem takeWhile_eq_replicate_run (c : Char) (t : Text) :
    t.takeWhile (· == c) = List.replicate (run c t) c := by
  refine List.eq_replicate_of_mem fun a ha => ?_
  simpa using List.all_eq_true.1 List.all_takeWhile a ha

/-- A text is the run that it starts with and what comes after it. -/
theorem replicate_run_append_drop (c : Char) (t : Text) :
    List.replicate (run c t) c ++ t.drop (run c t) = t := by
  have hsplit : t.takeWhile (· == c) ++ t.dropWhile (· == c) = t := List.takeWhile_append_dropWhile
  have hdrop : t.drop (run c t) = t.dropWhile (· == c) :=
    calc t.drop (run c t)
        = (t.takeWhile (· == c) ++ t.dropWhile (· == c)).drop (run c t) := by rw [hsplit]
      _ = t.dropWhile (· == c) := List.drop_left' rfl
  rw [← takeWhile_eq_replicate_run, hdrop, hsplit]

/-- A run ends where another character follows, or nothing. -/
theorem run_replicate_append {c : Char} {t : Text} (h : ∀ a ∈ t.head?, a ≠ c) (n : Nat) :
    run c (List.replicate n c ++ t) = n := by
  have hhead : ∀ a ∈ t.head?, (a == c) = false := by
    intro a ha
    simpa using h a ha
  rw [run, (span_append_of_head hhead _).1, List.takeWhile_replicate]
  simp

theorem one_le_run {c : Char} {t : Text} (h : t.head? = some c) : 1 ≤ run c t := by
  cases t with
  | nil => simp at h
  | cons a rest =>
    obtain rfl : a = c := by simpa using h
    simp [run]

theorem head?_replicate_append {c : Char} {n : Nat} (hn : 1 ≤ n) (t : Text) :
    (List.replicate n c ++ t).head? = some c := by
  cases n with
  | zero => omega
  | succ n => rfl

end Text

/-! ## Headings -/

/-- The line is `marker`, repeated `level` times and at least once, then a blank and anything. -/
structure HeadingShape (marker : Char) (level : Nat) (line : Text) : Prop where
  marker_ok : marker = '=' ∨ marker = '#'
  level_pos : 1 ≤ level
  split : ∃ blank title, (blank = ' ' ∨ blank = '\t') ∧
    line = List.replicate level marker ++ blank :: title

namespace HeadingShape

variable {marker : Char} {level : Nat} {line : Text}

theorem head? (h : HeadingShape marker level line) : line.head? = some marker := by
  obtain ⟨blank, title, -, rfl⟩ := h.split
  exact head?_replicate_append h.level_pos _

/-- A blank is no marker, so the run of markers ends before it. -/
theorem run_eq (h : HeadingShape marker level line) : run marker line = level := by
  obtain ⟨blank, title, hblank, rfl⟩ := h.split
  refine run_replicate_append ?_ level
  intro a ha
  obtain rfl : blank = a := by simpa using ha
  rcases h.marker_ok with rfl | rfl <;> rcases hblank with rfl | rfl <;> decide

end HeadingShape

/-- The marks of headings are found exactly in the lines of this shape. -/
theorem headingMark?_eq_some_iff {marker : Char} {level : Nat} {line : Text} :
    headingMark? line = some (marker, level) ↔ HeadingShape marker level line := by
  constructor
  · intro h
    unfold headingMark? at h
    split at h
    · simp at h
    · rename_i first rest
      split at h
      · rename_i hmarker
        split at h
        · simp at h
        · rename_i blank title hrest
          split at h
          · rename_i hblank
            simp only [Option.some.injEq, Prod.mk.injEq] at h
            obtain ⟨rfl, rfl⟩ := h
            have hsplit := replicate_run_append_drop first (first :: rest)
            rw [hrest] at hsplit
            exact ⟨hmarker, one_le_run rfl, blank, title, hblank, hsplit.symm⟩
          · simp at h
      · simp at h
  · intro h
    have hrun := h.run_eq
    have hhead := h.head?
    obtain ⟨blank, title, hblank, hline⟩ := h.split
    have hdrop : line.drop level = blank :: title := by simp [hline]
    unfold headingMark?
    cases line with
    | nil => simp at hhead
    | cons first rest =>
      obtain rfl : first = marker := by simpa using hhead
      simp [h.marker_ok, hrun, hdrop, hblank]

/-! ## Delimiters -/

/-- What a delimiter is without white space at its end, with the fence that it opens: four or more
    dashes, four or more dots, or three or more backticks with an info string. -/
inductive DelimiterShape : Fence → Text → Prop
  | dashes {n : Nat} (hn : 4 ≤ n) : DelimiterShape ⟨'-', n⟩ (List.replicate n '-')
  | dots {n : Nat} (hn : 4 ≤ n) : DelimiterShape ⟨'.', n⟩ (List.replicate n '.')
  | backticks {n : Nat} {info : Text} (hn : 3 ≤ n)
      (hinfo : ∀ c ∈ info, isWord c = true ∨ c = '+' ∨ c = '-') :
      DelimiterShape ⟨backtick, n⟩ (List.replicate n backtick ++ info)

namespace Fence

theorem isInfo_iff (c : Char) : isInfo c = true ↔ isWord c = true ∨ c = '+' ∨ c = '-' := by
  simp [isInfo, or_assoc]

theorem isInfo_backtick : isInfo backtick = false := by decide +kernel

/-- An info string does not lengthen the run of backticks before it. -/
theorem ne_backtick_of_info {info : Text} (h : ∀ c ∈ info, isInfo c = true) :
    ∀ c ∈ info.head?, c ≠ backtick := by
  rintro c hc rfl
  have hinfo := h backtick (List.mem_of_mem_head? hc)
  rw [isInfo_backtick] at hinfo
  exact Bool.false_ne_true hinfo

end Fence

/-- The kinds of delimiters, all at once: a run that is wide enough for its character, and an info
    string that may follow it and does not lengthen it. -/
theorem DelimiterShape.split {fence : Fence} {body : Text} (h : DelimiterShape fence body) :
    ∃ least info, Fence.minWidth? fence.marker = some least ∧ least ≤ fence.width ∧
      Fence.admitsInfo fence.marker info = true ∧ (∀ c ∈ info.head?, c ≠ fence.marker) ∧
      body = List.replicate fence.width fence.marker ++ info := by
  cases h with
  | dashes hn => exact ⟨4, [], rfl, hn, rfl, by simp, by simp⟩
  | dots hn => exact ⟨4, [], rfl, hn, rfl, by simp, by simp⟩
  | @backticks n info hn hinfo =>
    have hall : ∀ c ∈ info, Fence.isInfo c = true := fun c hc => (Fence.isInfo_iff c).2 (hinfo c hc)
    refine ⟨3, info, rfl, hn, ?_, Fence.ne_backtick_of_info hall, rfl⟩
    simp only [Fence.admitsInfo, beq_self_eq_true, Bool.true_and, Bool.or_eq_true, List.all_eq_true]
    exact Or.inr hall

theorem DelimiterShape.marker_ok {fence : Fence} {body : Text} (h : DelimiterShape fence body) :
    fence.marker = '-' ∨ fence.marker = '.' ∨ fence.marker = backtick := by
  cases h <;> simp

theorem DelimiterShape.one_le_width {fence : Fence} {body : Text} (h : DelimiterShape fence body) :
    1 ≤ fence.width := by
  cases h with
  | dashes hn => exact Nat.le_trans (by decide) hn
  | dots hn => exact Nat.le_trans (by decide) hn
  | backticks hn _ => exact Nat.le_trans (by decide) hn

theorem delimiterShape_of_split {fence : Fence} {least : Nat} {info : Text}
    (hleast : Fence.minWidth? fence.marker = some least) (hwidth : least ≤ fence.width)
    (hinfo : Fence.admitsInfo fence.marker info = true) :
    DelimiterShape fence (List.replicate fence.width fence.marker ++ info) := by
  obtain ⟨marker, width⟩ := fence
  simp only [Fence.admitsInfo, Bool.or_eq_true, List.isEmpty_iff, Bool.and_eq_true, beq_iff_eq,
    List.all_eq_true] at hinfo
  rw [Fence.minWidth?] at hleast
  split at hleast
  · rename_i hmarker
    obtain rfl := Option.some.inj hleast
    -- dashes and dots have no info string
    have hnone : info = [] := by
      rcases hinfo with hnone | ⟨hback, -⟩
      · exact hnone
      · rcases hmarker with rfl | rfl <;> exact absurd hback (by decide)
    rw [hnone, List.append_nil]
    rcases hmarker with rfl | rfl
    · exact .dashes hwidth
    · exact .dots hwidth
  · split at hleast
    · rename_i hmarker
      obtain rfl := Option.some.inj hleast
      subst hmarker
      refine .backticks hwidth fun c hc => ?_
      rcases hinfo with rfl | ⟨-, hall⟩
      · simp at hc
      · exact (Fence.isInfo_iff c).1 (hall c hc)
    · simp at hleast

namespace Fence

/-- Fences are opened exactly by the lines of this shape. -/
theorem ofLine?_eq_some_iff {line : Text} {fence : Fence} :
    ofLine? line = some fence ↔ DelimiterShape fence (trimEnd line) := by
  constructor
  · intro h
    unfold ofLine? at h
    split at h
    · simp at h
    · rename_i marker rest hbody
      dsimp only at h
      split at h
      · simp at h
      · rename_i least hleast
        split at h
        · rename_i hok
          obtain rfl := Option.some.inj h
          have hshape : DelimiterShape ⟨marker, run marker (marker :: rest)⟩ _ :=
            delimiterShape_of_split hleast hok.1 hok.2
          rw [replicate_run_append_drop] at hshape
          rwa [hbody]
        · simp at h
  · intro h
    obtain ⟨least, info, hleast, hwidth, hinfo, hhead, hbody⟩ := h.split
    have hrun : run fence.marker (trimEnd line) = fence.width := by
      rw [hbody, run_replicate_append hhead]
    have hdrop : (trimEnd line).drop fence.width = info := by simp [hbody]
    have hfirst : (trimEnd line).head? = some fence.marker := by
      rw [hbody]
      exact head?_replicate_append h.one_le_width info
    unfold ofLine?
    cases hline : trimEnd line with
    | nil => simp [hline] at hfirst
    | cons marker rest =>
      rw [hline] at hrun hdrop hfirst
      obtain rfl : marker = fence.marker := by simpa using hfirst
      simp [hrun, hdrop, hleast, hwidth, hinfo]

end Fence

/-! ## Lines that close a block -/

/-- A line that closes a block opened by a run of `marker` of the given width: up to trailing white
    space it is not empty, made of the marker alone, and at least as wide. -/
def ClosesRun (marker : Char) (width : Nat) (line : Text) : Prop :=
  trimEnd line ≠ [] ∧ (∀ c ∈ trimEnd line, c = marker) ∧ width ≤ (trimEnd line).length

theorem Fence.closedBy_iff (fence : Fence) (line : Text) :
    fence.closedBy line = true ↔ ClosesRun fence.marker fence.width line := by
  simp [Fence.closedBy, ClosesRun, and_assoc]

/-- A line closes a block if it is a run of the fence's character alone, at least as wide. -/
theorem closesRun_iff {marker : Char} {width : Nat} {line : Text} :
    ClosesRun marker width line ↔
      ∃ n, 1 ≤ n ∧ width ≤ n ∧ trimEnd line = List.replicate n marker := by
  constructor
  · rintro ⟨hne, hall, hwidth⟩
    exact ⟨_, List.length_pos_iff.2 hne, hwidth, List.eq_replicate_of_mem hall⟩
  · rintro ⟨n, hn, hwidth, hbody⟩
    rw [ClosesRun, hbody, ← List.length_pos_iff, List.length_replicate]
    exact ⟨hn, fun c hc => List.eq_of_mem_replicate hc, hwidth⟩

/-- A run of a fence's character that is no narrower than the fence is a delimiter. -/
theorem DelimiterShape.widen {fence : Fence} {body : Text} (h : DelimiterShape fence body) {n : Nat}
    (hn : fence.width ≤ n) : DelimiterShape ⟨fence.marker, n⟩ (List.replicate n fence.marker) := by
  obtain ⟨least, info, hleast, hwidth, -, -, -⟩ := h.split
  have hshape : DelimiterShape ⟨fence.marker, n⟩ (List.replicate n fence.marker ++ []) :=
    delimiterShape_of_split hleast (Nat.le_trans hwidth hn) rfl
  rwa [List.append_nil] at hshape

/-- A delimiter closes the block that it opens exactly if it has no info string. -/
theorem DelimiterShape.closedBy_iff {fence : Fence} {line : Text}
    (h : DelimiterShape fence (trimEnd line)) :
    fence.closedBy line = true ↔ trimEnd line = List.replicate fence.width fence.marker := by
  rw [Fence.closedBy_iff, closesRun_iff]
  constructor
  · rintro ⟨n, -, -, hbody⟩
    obtain ⟨least, info, -, -, -, hhead, hsplit⟩ := h.split
    have hwidth : fence.width = n :=
      calc fence.width = run fence.marker (trimEnd line) := by
            rw [hsplit, run_replicate_append hhead]
        _ = run fence.marker (List.replicate n fence.marker ++ []) := by
            rw [hbody, List.append_nil]
        _ = n := run_replicate_append (by simp) n
    rw [hbody, hwidth]
  · intro hbody
    exact ⟨fence.width, h.one_le_width, Nat.le_refl _, hbody⟩

/-! ## What a line is -/

theorem DelimiterShape.head? {fence : Fence} {line : Text}
    (h : DelimiterShape fence (trimEnd line)) : line.head? = some fence.marker := by
  obtain ⟨spaces, hline, -⟩ := exists_dropEndWhile_append isSpace line
  obtain ⟨least, info, -, -, -, -, hbody⟩ := h.split
  rw [← trimEnd, hbody, List.append_assoc] at hline
  rw [hline]
  exact head?_replicate_append h.one_le_width _

/-- White space after a delimiter does not lengthen its run. -/
theorem DelimiterShape.run_eq {fence : Fence} {line : Text}
    (h : DelimiterShape fence (trimEnd line)) : run fence.marker line = fence.width := by
  obtain ⟨spaces, hline, hspaces⟩ := exists_dropEndWhile_append isSpace line
  obtain ⟨least, info, -, -, -, hhead, hbody⟩ := h.split
  rw [← trimEnd, hbody, List.append_assoc] at hline
  rw [hline]
  refine run_replicate_append ?_ fence.width
  intro a ha
  cases info with
  | cons c info => exact hhead a ha
  | nil =>
    rintro rfl
    have hspace := hspaces fence.marker (List.mem_of_mem_head? ha)
    rcases h.marker_ok with hmarker | hmarker | hmarker
    all_goals
      rw [hmarker] at hspace
      exact absurd hspace (by decide)

/-- The two shapes exclude each other by the first character of the line. -/
theorem HeadingShape.not_delimiterShape {marker : Char} {level : Nat} {line : Text}
    (h : HeadingShape marker level line) (fence : Fence) :
    ¬ DelimiterShape fence (trimEnd line) := by
  intro hdelimiter
  have hmarker := h.marker_ok
  rw [Option.some.inj (h.head?.symm.trans hdelimiter.head?)] at hmarker
  rcases hdelimiter.marker_ok with hfence | hfence | hfence
  all_goals
    rw [hfence] at hmarker
    exact absurd hmarker (by decide)

namespace HeadingRules

theorem admits_iff {rules : HeadingRules} {marker : Char} {level : Nat} :
    rules.admits marker level = true ↔
      level ≤ rules.maxLevel ∧ (marker = '=' ∨ rules.markdown = true) := by
  simp [admits, and_comm]

theorem classify_eq_header_iff {rules : HeadingRules} {line : Text} {level : Nat} :
    rules.classify line = .header level ↔
      ∃ marker, HeadingShape marker level line ∧ rules.admits marker level = true := by
  simp only [← headingMark?_eq_some_iff]
  unfold classify
  cases hmark : headingMark? line with
  | none => cases hfence : Fence.ofLine? line <;> simp
  | some mark =>
    obtain ⟨marker, width⟩ := mark
    by_cases hadmits : rules.admits marker width = true
    · simp only [hadmits, if_true, LineKind.header.injEq, Option.some.injEq, Prod.mk.injEq]
      constructor
      · rintro rfl
        exact ⟨marker, ⟨rfl, rfl⟩, hadmits⟩
      · rintro ⟨_, ⟨rfl, rfl⟩, -⟩
        rfl
    · simp only [hadmits, Option.some.injEq, Prod.mk.injEq]
      constructor
      · intro h
        simp at h
      · rintro ⟨_, ⟨rfl, rfl⟩, h⟩
        exact absurd h hadmits

/-- A heading line is no delimiter, so it does not matter that headings are looked for first, nor
    which of them the rules admit. -/
theorem classify_eq_delimiter_iff {rules : HeadingRules} {line : Text} {fence : Fence} :
    rules.classify line = .delimiter fence ↔ DelimiterShape fence (trimEnd line) := by
  rw [← Fence.ofLine?_eq_some_iff]
  unfold classify
  cases hmark : headingMark? line with
  | none => cases hfence : Fence.ofLine? line <;> simp
  | some mark =>
    obtain ⟨marker, width⟩ := mark
    have hnone : ¬ Fence.ofLine? line = some fence := by
      rw [Fence.ofLine?_eq_some_iff]
      exact (headingMark?_eq_some_iff.1 hmark).not_delimiterShape fence
    simp only [hnone, iff_false]
    split <;> simp

/-- **The grammar of lines.** For every line, whatever characters it holds, and all rules:

    * it is a heading of level `n` exactly if it is a marker, repeated `n` times, then a blank and
      anything, and the rules admit the level and the marker;
    * it is a delimiter exactly if it is one up to white space at its end, whatever the rules are,
      and then it opens the fence that its run of characters says;
    * it is other content in all other cases;
    * no line has the shapes of both;
    * it is a delimiter if it closes a block that a delimiter opens;
    * if it is a delimiter, it closes the block that it opens exactly if it has no info string. -/
theorem classify_exact (rules : HeadingRules) (line : Text) :
    (∀ n, rules.classify line = .header n ↔
      ∃ marker, HeadingShape marker n line ∧ n ≤ rules.maxLevel ∧
        (marker = '=' ∨ rules.markdown = true)) ∧
    (∀ fence, rules.classify line = .delimiter fence ↔ DelimiterShape fence (trimEnd line)) ∧
    (rules.classify line = .other ↔
      (¬ ∃ n marker, HeadingShape marker n line ∧ n ≤ rules.maxLevel ∧
        (marker = '=' ∨ rules.markdown = true)) ∧
      ¬ ∃ fence, DelimiterShape fence (trimEnd line)) ∧
    (∀ n marker fence, ¬ (HeadingShape marker n line ∧ DelimiterShape fence (trimEnd line))) ∧
    (∀ (rules' : HeadingRules) (opening : Text) (fence : Fence),
      rules'.classify opening = .delimiter fence → fence.closedBy line = true →
      rules.classify line = .delimiter ⟨fence.marker, (trimEnd line).length⟩) ∧
    ∀ fence, rules.classify line = .delimiter fence →
      (fence.closedBy line = true ↔
        trimEnd line = List.replicate fence.width fence.marker) := by
  have hheader : ∀ n, rules.classify line = .header n ↔
      ∃ marker, HeadingShape marker n line ∧ n ≤ rules.maxLevel ∧
        (marker = '=' ∨ rules.markdown = true) := by
    intro n
    simp only [classify_eq_header_iff, admits_iff]
  refine ⟨hheader, fun fence => classify_eq_delimiter_iff, ?_, ?_, ?_, ?_⟩
  · simp only [← hheader, ← @classify_eq_delimiter_iff rules]
    cases rules.classify line <;> simp
  · rintro n marker fence ⟨hheading, hdelimiter⟩
    exact hheading.not_delimiterShape fence hdelimiter
  · intro rules' opening fence hopening hcloses
    obtain ⟨n, -, hwidth, hbody⟩ := closesRun_iff.1 ((fence.closedBy_iff line).1 hcloses)
    rw [classify_eq_delimiter_iff] at hopening ⊢
    rw [hbody, List.length_replicate]
    exact hopening.widen hwidth
  · intro fence hfence
    exact (classify_eq_delimiter_iff.1 hfence).closedBy_iff

/-- A line that closes a block with an info string, and would open a block and close that too. -/
theorem classify_exact_backticks :
    let opening := [backtick, backtick, backtick, 'c', '+', '+', ' ']
    let line := [backtick, backtick, backtick, backtick, '\t']
    let fence : Fence := ⟨backtick, 3⟩
    let wider : Fence := ⟨backtick, 4⟩
    classify {} opening = .delimiter fence ∧ fence.closedBy line = true ∧
    classify ⟨0, false⟩ line = .delimiter wider ∧ wider.closedBy line = true := by
  intro opening line fence wider
  obtain ⟨-, -, -, -, hcloses, hself⟩ := classify_exact ⟨0, false⟩ line
  have hopening : classify {} opening = .delimiter fence := by decide +kernel
  have hclosed : fence.closedBy line = true := by decide
  have hline : classify ⟨0, false⟩ line = .delimiter wider :=
    hcloses {} opening fence hopening hclosed
  exact ⟨hopening, hclosed, hline, (hself wider hline).2 (by decide)⟩

end HeadingRules

end DocOutline
