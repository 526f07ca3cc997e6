import DocOutline.Proofs.Bounds
import DocOutline.Proofs.LineEndings
import DocOutline.Proofs.Titles

set_option autoImplicit false

/-! # Reading the written tree

The outline of a document is written as a tree of indented lines. Titles are free text: they may
hold blanks, brackets and numbers, and look like the details that follow a title, or like another
line. Still the tree says what it was made from (`Document.outline_legible`). Three things make it
legible:

* a title has no line feed in it, so there is one line for each section;
* a title does not start with white space, so the blanks in front of it are the indentation;
* the details are read from the end of the line, where each number has a label before it that does
  not end with a digit. Whatever is left is the title.

The first two are facts about the titles of headings (`Text.legible_title`); of a forest in general
they do not hold. -/

namespace DocOutline

open Text

/-! ## Titles -/

namespace Text

/-- A title that can be told from what is written around it: it has no line feed in it and does not
    start with white space. -/
structure Legible (name : Text) : Prop where
  feed : '\n' ∉ name
  head : ∀ c ∈ name.head?, isSpace c = false

theorem legible_title {t : Text} (h : '\n' ∉ t) : Legible (title t) := by
  refine ⟨?_, (trimmed_trim _).head⟩
  intro hmem
  exact h (mem_of_mem_title hmem)

end Text

/-- A title as it is shown is not empty, and legible if the title is. -/
theorem Row.exists_shownTitle_eq_cons {row : Row} (h : Legible row.node.name) :
    ∃ c rest, row.shownTitle = c :: rest ∧ isSpace c = false ∧ '\n' ∉ c :: rest := by
  unfold Row.shownTitle
  cases hname : row.node.name with
  | nil => exact ⟨'(', "untitled)".toList, by decide, by decide, by decide⟩
  | cons c rest =>
    rw [hname] at h
    exact ⟨c, rest, by simp, h.head c rfl, h.feed⟩

/-- A legible title as it is shown does not go on with the blanks in front of it. -/
theorem Row.ne_blank_of_shownTitle {row : Row} (h : Legible row.node.name) (more : Text) :
    ∀ c ∈ (row.shownTitle ++ more).head?, c ≠ ' ' := by
  obtain ⟨first, rest, hshown, hspace, -⟩ := Row.exists_shownTitle_eq_cons h
  intro c hc hblank
  rw [hshown, List.cons_append, List.head?_cons, Option.mem_some_iff] at hc
  rw [hc, hblank] at hspace
  exact absurd hspace (by decide)

/-! ## One line -/

/-- The details at the end of a text can be read back from the end, and with them what stands before
    them, whatever it is. -/
theorem Section.append_details_inj {table table' : LineTable} {s s' : Section} {front front' : Text}
    (h : front ++ s.details table = front' ++ s'.details table') :
    front = front' ∧ s.level = s'.level ∧ s.start = s'.start ∧ s.stop = s'.stop := by
  rw [Section.details_eq rfl, Section.details_eq rfl] at h
  simp only [← List.append_assoc] at h
  have hclosed := List.append_cancel_right h
  obtain ⟨hcolumn, -⟩ := append_label_ofNat_inj (c := ':') (by decide) (by decide) hclosed
  obtain ⟨hline, -⟩ := append_label_ofNat_inj (c := '(') (by decide) (by decide) hcolumn
  obtain ⟨hstop, hstops⟩ := append_label_ofNat_inj (c := '=') (by decide) (by decide) hline
  obtain ⟨hstart, hstarts⟩ := append_label_ofNat_inj (c := ' ') (by decide) (by decide) hstop
  obtain ⟨hfront, hlevels⟩ := append_label_ofNat_inj (c := ' ') (by decide) (by decide) hstart
  exact ⟨hfront, hlevels, hstarts, hstops⟩

theorem Section.newline_notMem_details (table : LineTable) (s : Section) :
    '\n' ∉ s.details table := by
  rw [Section.details_eq rfl]
  simp [newline_notMem_ofNat]

/-- A run of one character ends where another character follows. -/
theorem replicate_append_inj {a : Char} {m n : Nat} {s t : Text} (hs : ∀ c ∈ s.head?, c ≠ a)
    (ht : ∀ c ∈ t.head?, c ≠ a) (h : List.replicate m a ++ s = List.replicate n a ++ t) :
    m = n ∧ s = t := by
  have hlength : m = n :=
    calc m = run a (List.replicate m a ++ s) := (run_replicate_append hs m).symm
      _ = run a (List.replicate n a ++ t) := by rw [h]
      _ = n := run_replicate_append ht n
  subst hlength
  exact ⟨rfl, List.append_cancel_left h⟩

/-- The line of a section with a legible title is one line, and its indentation ends with the first
    character of the title. -/
theorem Row.exists_line {row : Row} (h : Legible row.node.name) (table : LineTable)
    (showOffsets : Bool) :
    ∃ c rest, isSpace c = false ∧ '\n' ∉ c :: rest ∧
      row.render table showOffsets
        = List.replicate (2 * row.depth) ' ' ++ c :: rest ++ ['\n'] := by
  obtain ⟨c, rest, hname, hspace, hfeed⟩ := Row.exists_shownTitle_eq_cons h
  refine ⟨c, rest ++ (if showOffsets then row.node.details table else []), hspace, ?_, ?_⟩
  · rw [← List.cons_append, List.mem_append, not_or]
    refine ⟨hfeed, ?_⟩
    split
    · exact row.node.newline_notMem_details table
    · simp
  · rw [Row.render, Row.displayName_eq_shownTitle, hname]
    simp

/-- The two rows are written with the same indentation and title, and if details are shown, with the
    same level and extent. -/
structure Row.ShownAlike (showOffsets : Bool) (row row' : Row) : Prop where
  depth : row.depth = row'.depth
  name : row.shownTitle = row'.shownTitle
  details : showOffsets = true → row.node.level = row'.node.level ∧
    row.node.start = row'.node.start ∧ row.node.stop = row'.node.stop

/-- What the line of a section says can be read off the line. -/
theorem Row.shownAlike_of_render_eq {table table' : LineTable} {showOffsets : Bool} {row row' : Row}
    (hlegible : Legible row.node.name) (hlegible' : Legible row'.node.name)
    (h : row.render table showOffsets = row'.render table' showOffsets) :
    Row.ShownAlike showOffsets row row' := by
  rw [Row.render, Row.render, Row.displayName_eq_shownTitle, Row.displayName_eq_shownTitle] at h
  have hline := List.append_cancel_right h
  rw [List.append_assoc, List.append_assoc] at hline
  obtain ⟨hindent, hrest⟩ := replicate_append_inj (Row.ne_blank_of_shownTitle hlegible _)
    (Row.ne_blank_of_shownTitle hlegible' _) hline
  have hdepth : row.depth = row'.depth := by omega
  cases showOffsets with
  | false =>
    refine ⟨hdepth, by simpa using hrest, ?_⟩
    intro hshow
    exact absurd hshow Bool.false_ne_true
  | true =>
    simp only [if_true] at hrest
    obtain ⟨hname, hlevel, hstart, hstop⟩ := Section.append_details_inj hrest
    exact ⟨hdepth, hname, fun _ => ⟨hlevel, hstart, hstop⟩⟩

/-! ## All lines -/

/-- Lists that are mapped to the same list belong together, element by element. -/
theorem forall₂_of_map_eq {α β γ : Type} {f : α → γ} {g : β → γ} {R : α → β → Prop} {l : List α}
    {l' : List β} (h : l.map f = l'.map g) (hR : ∀ a ∈ l, ∀ b ∈ l', f a = g b → R a b) :
    List.Forall₂ R l l' := by
  induction l generalizing l' with
  | nil =>
    rw [List.map_nil, eq_comm, List.map_eq_nil_iff] at h
    rw [h]
    exact .nil
  | cons a l ih =>
    cases l' with
    | nil => simp at h
    | cons b l' =>
      simp only [List.map_cons, List.cons.injEq] at h
      refine .cons (hR a List.mem_cons_self b List.mem_cons_self h.1) (ih h.2 ?_)
      intro x hx y hy
      exact hR x (List.mem_cons_of_mem a hx) y (List.mem_cons_of_mem b hy)

theorem Forest.pieces_renderTree {f : Forest}
    (h : ∀ row ∈ Forest.walk f, Legible row.node.name) (text : Text) (showOffsets : Bool) :
    pieces (f.renderTree text showOffsets)
      = (Forest.walk f).map (Row.render (LineTable.ofText text) showOffsets) := by
  refine pieces_flatMap ?_
  intro row hrow
  obtain ⟨c, rest, hspace, hfeed, hline⟩ :=
    Row.exists_line (h row hrow) (LineTable.ofText text) showOffsets
  refine ⟨_, ?_, hline⟩
  simp only [List.mem_append, List.mem_replicate, not_or]
  exact ⟨by simp, hfeed⟩

namespace Document

/-- The titles of an outline are legible, at whatever depth it is pruned. -/
theorem legible_of_mem_walk_prune {rules : HeadingRules} {text : Text} {maxDepth : Nat} {row : Row}
    (h : row ∈ Forest.walk ((ofText rules text).outline.prune maxDepth)) :
    Legible row.node.name := by
  obtain ⟨full, hfull, children, rfl⟩ := Forest.exists_row_of_mem_walk_prune h
  obtain ⟨token, hmem, hof⟩ := exists_header_of_mem hfull
  have hheader : token.kind.isHeader = true := by
    rw [hof.kind]
    rfl
  show Legible full.node.name
  rw [← hof.name]
  exact legible_title (HeadingRules.not_mem_text_of_isHeader hmem hheader)

/-- **The written tree is unambiguous.** For every text, all rules and every depth at which the
    outline is pruned, with or without details: the tree that is written has one line for each
    section, ended by a line feed; the line of a section is indented by twice its depth, and goes on
    with a character that is no white space.

    If the same tree is written for two documents, they have as many sections, which have the same
    depths and are shown with the same titles, in the same order; and if details are shown, they have
    the same levels and extents. -/
theorem outline_legible :
    (∀ (rules : HeadingRules) (text : Text) (maxDepth : Nat) (showOffsets : Bool),
      let printed := (ofText rules text).outline.prune maxDepth
      let lines := pieces (printed.renderTree text showOffsets)
      lines.length = Forest.count printed ∧
      ∀ (j : Nat) (row : Row), (Forest.walk printed)[j]? = some row →
        ∃ c rest, lines[j]? = some (List.replicate (2 * row.depth) ' ' ++ c :: rest ++ ['\n']) ∧
          isSpace c = false ∧ '\n' ∉ c :: rest) ∧
    ∀ (rules rules' : HeadingRules) (text text' : Text) (maxDepth maxDepth' : Nat)
      (showOffsets : Bool),
      let printed := (ofText rules text).outline.prune maxDepth
      let printed' := (ofText rules' text').outline.prune maxDepth'
      printed.renderTree text showOffsets = printed'.renderTree text' showOffsets →
      List.Forall₂ (Row.ShownAlike showOffsets) (Forest.walk printed) (Forest.walk printed') := by
  constructor
  · intro rules text maxDepth showOffsets printed lines
    have hlegible : ∀ row ∈ Forest.walk printed, Legible row.node.name :=
      fun row hrow => legible_of_mem_walk_prune hrow
    have hlines : lines = (Forest.walk printed).map _ :=
      Forest.pieces_renderTree hlegible text showOffsets
    rw [hlines]
    refine ⟨List.length_map _, ?_⟩
    intro j row hrow
    obtain ⟨c, rest, hspace, hfeed, hline⟩ :=
      Row.exists_line (hlegible row (List.mem_of_getElem? hrow)) (LineTable.ofText text) showOffsets
    refine ⟨c, rest, ?_, hspace, hfeed⟩
    rw [List.getElem?_map, hrow, Option.map_some, hline]
  · intro rules rules' text text' maxDepth maxDepth' showOffsets printed printed' hsame
    have hlegible : ∀ row ∈ Forest.walk printed, Legible row.node.name :=
      fun row hrow => legible_of_mem_walk_prune hrow
    have hlegible' : ∀ row ∈ Forest.walk printed', Legible row.node.name :=
      fun row hrow => legible_of_mem_walk_prune hrow
    have hlines := congrArg pieces hsame
    rw [Forest.pieces_renderTree hlegible, Forest.pieces_renderTree hlegible'] at hlines
    refine forall₂_of_map_eq hlines ?_
    intro row hrow row' hrow' hrender
    exact Row.shownAlike_of_render_eq (hlegible row hrow) (hlegible' row' hrow') hrender

/-- Two documents for which the same line is written: the first has a second section, at which its
    outline is pruned. -/
theorem outline_legible_pruned :
    let text := ['=', ' ', 'A', '\n', '=', '=', ' ', 'B']
    let text' := ['#', '\t', 'A', '\n', 'w', 'x', 'y', 'z']
    let printed := (ofText {} text).outline.prune 1
    let printed' := (ofText {} text').outline.prune 0
    let root : Section := ⟨['A'], 1, 0, 7, []⟩
    ((Forest.walk printed)[0]? = some ⟨0, root⟩ ∧
      ∃ c rest, (pieces (printed.renderTree text true))[0]? = some (c :: rest ++ ['\n']) ∧
        isSpace c = false ∧ '\n' ∉ c :: rest) ∧
    printed.renderTree text true = printed'.renderTree text' true ∧
    List.Forall₂ (Row.ShownAlike true) (Forest.walk printed) (Forest.walk printed') := by
  intro text text' printed printed' root
  obtain ⟨hlines, hsame⟩ := outline_legible
  have hprinted : printed = [root] := rfl
  have hprinted' : printed' = [root] := rfl
  have htable : LineTable.ofText text = LineTable.ofText text' := rfl
  have hrow : (Forest.walk printed)[0]? = some ⟨0, root⟩ := by
    rw [Forest.walk_eq_rows, hprinted]
    rfl
  have htree : printed.renderTree text true = printed'.renderTree text' true := by
    rw [hprinted, hprinted', Forest.renderTree, Forest.renderTree, htable]
  exact ⟨⟨hrow, (hlines {} text 1 true).2 0 _ hrow⟩, htree, hsame {} {} text text' 1 0 true htree⟩

end Document

end DocOutline
