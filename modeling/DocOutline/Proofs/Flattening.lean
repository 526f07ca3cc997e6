import DocOutline.Proofs.Extraction

set_option autoImplicit false

/-! # Outlines and their headings in reading order

Written out in reading order, an outline becomes a list of headings, from which it is rebuilt. Not
every forest is: the outline of a document is *well-levelled*, which is to say that children are
deeper than their section and that levels do not rise from one section to the next one beside it.
A well-levelled forest is rebuilt from the levels and starts of its sections, and so the outline of
a document is the only well-levelled forest with its headings (`Document.outline_flattening`).

Titles and ends of sections are not part of this, since they depend on the text. `Forest.bare` is a
forest without them. -/

namespace DocOutline

open Text

/-! ## Well-levelled forests -/

mutual
/-- The sections inside a section are deeper than it, and well-levelled. -/
def Section.WellLevelled : Section → Prop
  | ⟨_, level, _, _, children⟩ =>
    (∀ child ∈ children, level < child.level) ∧ Forest.WellLevelled children

/-- Each section is well-levelled, and no deeper than the one before it. -/
def Forest.WellLevelled : List Section → Prop
  | [] => True
  | s :: rest =>
    s.WellLevelled ∧ (∀ next ∈ rest.head?, next.level ≤ s.level) ∧ Forest.WellLevelled rest
end

theorem Section.wellLevelled_iff (s : Section) :
    s.WellLevelled ↔
      (∀ child ∈ s.children, s.level < child.level) ∧ Forest.WellLevelled s.children := by
  cases s; rfl

theorem Forest.WellLevelled.of_append {f g : Forest} (h : Forest.WellLevelled (f ++ g)) :
    Forest.WellLevelled f ∧ Forest.WellLevelled g := by
  induction f with
  | nil => exact ⟨trivial, h⟩
  | cons s f ih =>
    obtain ⟨hs, hnext, hrest⟩ := h
    obtain ⟨hf, hg⟩ := ih hrest
    refine ⟨⟨hs, ?_, hf⟩, hg⟩
    intro next hmem
    cases f with
    | nil => simp at hmem
    | cons r f => exact hnext next hmem

/-- The outline of any headings is well-levelled. -/
theorem Forest.wellLevelled_ofHeadings (length : Nat) (headings : List Heading) :
    Forest.WellLevelled (Forest.ofHeadings length headings) := by
  induction headings with
  | nil => trivial
  | cons h later ih =>
    obtain ⟨-, -, -, hhead⟩ := Heading.skipDeeper_split h.level later
    -- the later roots are the children and the roots beside, one after the other
    rw [← Heading.children_append length h later] at ih
    obtain ⟨hinside, hbeside⟩ := ih.of_append
    rw [Forest.ofHeadings_cons]
    refine ⟨?_, ?_, hbeside⟩
    · rw [Section.wellLevelled_iff]
      exact ⟨fun child hchild => Heading.level_lt_of_mem_children hchild, hinside⟩
    · intro next hnext
      cases hskip : Heading.skipDeeper h.level later with
      | nil => simp [hskip, Forest.ofHeadings] at hnext
      | cons k rest =>
        rw [hskip, Forest.ofHeadings_cons, List.head?_cons, Option.mem_some_iff] at hnext
        rw [← hnext, Heading.toSection_level, Heading.toSection_level]
        exact hhead k (by rw [hskip, List.head?_cons])

/-! ## Without titles and ends -/

mutual
/-- A section without titles and ends: its shape, with levels and starts. -/
def Section.bare : Section → Section
  | ⟨_, level, start, _, children⟩ => ⟨[], level, start, 0, Forest.bare children⟩

/-- A forest without titles and ends: its shape, with levels and starts. -/
def Forest.bare : List Section → List Section
  | [] => []
  | s :: rest => s.bare :: Forest.bare rest
end

@[simp] theorem Section.bare_level (s : Section) : s.bare.level = s.level := by
  cases s; rfl

theorem Forest.bare_eq_map (f : Forest) : Forest.bare f = f.map Section.bare := by
  induction f with
  | nil => rfl
  | cons s f ih => rw [Forest.bare, ih, List.map_cons]

/-- The level and the start of a heading. -/
def Heading.mark (h : Heading) : Nat × Nat := (h.level, h.start)

/-- Without titles and ends, the new root depends on the mark of its heading alone. -/
theorem Heading.bare_nest (length : Nat) (h : Heading) (later : Forest) :
    Forest.bare (h.nest length later)
      = ⟨[], h.mark.1, h.mark.2, 0,
            (Forest.bare later).takeWhile fun s => decide (h.mark.1 < s.level)⟩
          :: (Forest.bare later).dropWhile fun s => decide (h.mark.1 < s.level) := by
  have hdeeper : (fun s : Section => decide (h.mark.1 < s.level)) ∘ Section.bare
      = fun s => decide (h.level < s.level) := by
    funext s
    rw [Function.comp_apply, Section.bare_level]
    rfl
  rw [Forest.bare_eq_map later, List.takeWhile_map, List.dropWhile_map, hdeeper,
    ← Forest.bare_eq_map, ← Forest.bare_eq_map]
  rfl

/-- Without titles and ends, an outline depends on the marks of its headings alone. -/
theorem Forest.bare_ofHeadings_congr {headings headings' : List Heading}
    (h : headings.map Heading.mark = headings'.map Heading.mark) (length length' : Nat) :
    Forest.bare (Forest.ofHeadings length headings)
      = Forest.bare (Forest.ofHeadings length' headings') := by
  induction headings generalizing headings' with
  | nil =>
    rw [List.map_nil, eq_comm, List.map_eq_nil_iff] at h
    rw [h]
    rfl
  | cons first later ih =>
    rw [List.map_cons, eq_comm] at h
    obtain ⟨first', later', rfl, hfirst, hlater⟩ := List.map_eq_cons_iff.1 h
    have hroots := ih hlater.symm
    show Forest.bare (first.nest length (Forest.ofHeadings length later))
      = Forest.bare (first'.nest length' (Forest.ofHeadings length' later'))
    rw [Heading.bare_nest, Heading.bare_nest, hfirst, hroots]

/-! ## Writing a forest out -/

/-- The heading of a section. -/
def Section.heading (s : Section) : Heading := ⟨s.level, s.start, s.name⟩

/-- The headings of a forest in reading order. -/
def Forest.headings (f : Forest) : List Heading := (Forest.walk f).map fun row => row.node.heading

theorem Forest.headings_eq (depth : Nat) (f : Forest) :
    Forest.headings f = ((Forest.rows depth f).map Row.node).map Section.heading := by
  rw [Forest.headings, Forest.walk_eq_rows, Forest.map_node_rows depth 0, List.map_map]
  rfl

@[simp] theorem Forest.headings_nil : Forest.headings [] = [] := by
  rw [Forest.headings_eq 0]
  rfl

theorem Forest.headings_cons (s : Section) (rest : Forest) :
    Forest.headings (s :: rest)
      = (s.heading :: Forest.headings s.children) ++ Forest.headings rest := by
  rw [Forest.headings_eq 0, Forest.headings_eq 1 s.children, Forest.headings_eq 0 rest,
    Forest.rows, Section.rows_eq]
  simp only [List.map_append, List.map_cons]

/-- Written out, the outline of some headings gives them back. -/
theorem Forest.headings_ofHeadings (length : Nat) (headings : List Heading) :
    Forest.headings (Forest.ofHeadings length headings) = headings := by
  induction headings with
  | nil => exact Forest.headings_nil
  | cons h later ih =>
    rw [Forest.headings_eq 0, Forest.map_node_rows_ofHeadings_cons, List.map_cons,
      ← Forest.headings_eq, ih]
    rfl

/-- If the roots of a well-levelled forest are deeper than a level, all its headings are. -/
theorem Forest.lt_level_of_mem_headings (level : Nat) :
    ∀ f : List Section, Forest.WellLevelled f → (∀ s ∈ f, level < s.level) →
      ∀ h ∈ Forest.headings f, level < h.level
  | [], _, _, h, hmem => by simp at hmem
  | ⟨name, own, start, stop, children⟩ :: rest, hf, hroots, h, hmem => by
    obtain ⟨⟨hdeeper, hchildren⟩, -, hrest⟩ := hf
    obtain ⟨hown, hroots⟩ := List.forall_mem_cons.1 hroots
    rw [Forest.headings_cons, List.cons_append] at hmem
    rcases List.mem_cons.1 hmem with rfl | hmem
    · exact hown
    · rcases List.mem_append.1 hmem with hinside | hbeside
      · exact Forest.lt_level_of_mem_headings level children hchildren
          (fun child hchild => Nat.lt_trans hown (hdeeper child hchild)) h hinside
      · exact Forest.lt_level_of_mem_headings level rest hrest hroots h hbeside

/-- Headings that are all deeper than the one before them become the inside of its section. -/
theorem Heading.ofHeadings_cons_of_deeper (length : Nat) {h : Heading} {inside : List Heading}
    (hinside : ∀ k ∈ inside, h.level < k.level) :
    Forest.ofHeadings length (h :: inside)
      = [⟨h.name, h.level, h.start, length - 1, Forest.ofHeadings length inside⟩] := by
  have hskip : Heading.skipDeeper h.level inside = [] :=
    List.dropWhile_eq_nil_iff.2 fun k hk => decide_eq_true (hinside k hk)
  have hchildren : (h.toSection length inside).children = Forest.ofHeadings length inside := by
    rw [← Heading.children_append length h inside, hskip]
    exact (List.append_nil _).symm
  have hstop : (h.toSection length inside).stop = length - 1 := by
    rw [Heading.toSection_stop, hskip]
  rw [Forest.ofHeadings_cons, hskip, ← hchildren, ← hstop]
  rfl

/-- A well-levelled forest is rebuilt from its headings, up to titles and ends. -/
theorem Forest.bare_ofHeadings_headings :
    ∀ (f : List Section) (length : Nat), Forest.WellLevelled f →
      Forest.bare (Forest.ofHeadings length (Forest.headings f)) = Forest.bare f
  | [], length, _ => by
    rw [Forest.headings_nil]
    rfl
  | ⟨name, level, start, stop, children⟩ :: rest, length, hf => by
    obtain ⟨⟨hdeeper, hchildren⟩, hnext, hrest⟩ := hf
    have hinside : ∀ k ∈ Forest.headings children, level < k.level :=
      Forest.lt_level_of_mem_headings level children hchildren hdeeper
    -- the next root ends the first one, since it is no deeper than anything in it
    have hends : ∀ k ∈ ⟨level, start, name⟩ :: Forest.headings children,
        ∀ b ∈ (Forest.headings rest).head?, b.level ≤ k.level := by
      intro k hk b hb
      have hb' : b.level ≤ level := by
        cases rest with
        | nil => simp at hb
        | cons next rest =>
          rw [Forest.headings_cons, List.cons_append, List.head?_cons, Option.mem_some_iff] at hb
          rw [← hb]
          exact hnext next rfl
      rcases List.mem_cons.1 hk with rfl | hk
      · exact hb'
      · exact Nat.le_of_lt (Nat.lt_of_le_of_lt hb' (hinside k hk))
    rw [Forest.headings_cons]
    show Forest.bare (Forest.ofHeadings length
      ((⟨level, start, name⟩ :: Forest.headings children) ++ Forest.headings rest)) = _
    rw [Forest.ofHeadings_append length _ _ hends, Heading.ofHeadings_cons_of_deeper _ hinside,
      List.singleton_append, Forest.bare, Section.bare,
      Forest.bare_ofHeadings_headings children _ hchildren,
      Forest.bare_ofHeadings_headings rest length hrest]
    rfl

/-! ## The outline of a document -/

/-- The levels and starts of the sections of a forest, in reading order. -/
def Forest.marks (f : Forest) : List (Nat × Nat) :=
  (Forest.walk f).map fun row => (row.node.level, row.node.start)

mutual
theorem Section.map_mark_rows_bare (depth : Nat) :
    ∀ s : Section, (s.bare.rows depth).map (fun row => (row.node.level, row.node.start))
      = (s.rows depth).map fun row => (row.node.level, row.node.start)
  | ⟨_, _, _, _, children⟩ => by
    simp only [Section.bare, Section.rows, List.map_cons,
      Forest.map_mark_rows_bare (depth + 1) children]

theorem Forest.map_mark_rows_bare (depth : Nat) :
    ∀ f : List Section,
      (Forest.rows depth (Forest.bare f)).map (fun row => (row.node.level, row.node.start))
        = (Forest.rows depth f).map fun row => (row.node.level, row.node.start)
  | [] => rfl
  | s :: rest => by
    simp only [Forest.bare, Forest.rows, List.map_append, Section.map_mark_rows_bare depth s,
      Forest.map_mark_rows_bare depth rest]
end

theorem Forest.marks_bare (f : Forest) : Forest.marks (Forest.bare f) = Forest.marks f := by
  rw [Forest.marks, Forest.walk_eq_rows, Forest.map_mark_rows_bare, Forest.marks,
    Forest.walk_eq_rows]

theorem Forest.map_mark_headings (f : Forest) :
    (Forest.headings f).map Heading.mark = Forest.marks f := by
  rw [Forest.headings, List.map_map]
  rfl

namespace Document

/-- The levels and starts of the header tokens, in the order of the tokens. -/
def marks (d : Document) : List (Nat × Nat) :=
  d.tokens.filterMap fun t => t.kind.level?.map fun level => (level, t.start)

theorem map_mark_headings (d : Document) : d.headings.map Heading.mark = d.marks := by
  rw [headings, marks, List.map_filterMap]
  congr 1
  funext t
  rw [Token.heading?, Option.map_map]
  rfl

theorem wellLevelled_outline (d : Document) : Forest.WellLevelled d.outline := by
  rw [outline_eq]
  exact Forest.wellLevelled_ofHeadings _ _

theorem marks_outline (d : Document) : Forest.marks d.outline = d.marks := by
  rw [← Forest.map_mark_headings, outline_eq, Forest.headings_ofHeadings, map_mark_headings]

/-- A well-levelled forest with the marks of a document has the shape of its outline. -/
theorem bare_outline_of_marks {d : Document} {f : Forest} (hf : Forest.WellLevelled f)
    (hmarks : Forest.marks f = d.marks) : Forest.bare f = Forest.bare d.outline := by
  rw [← Forest.map_mark_headings, ← map_mark_headings] at hmarks
  rw [← Forest.bare_ofHeadings_headings f (byteLength d.text) hf, outline_eq]
  exact Forest.bare_ofHeadings_congr hmarks _ _

/-- **Flattening.** For every document, whatever its tokens are, the outline is well-levelled, and
    among the well-levelled forests it is, up to titles and ends, the one whose sections have in
    reading order the levels and starts of the header tokens. In turn every well-levelled forest is
    the outline of its headings, up to titles and ends, over any text and wherever the header tokens
    end. -/
theorem outline_flattening :
    (∀ d : Document, Forest.WellLevelled d.outline ∧
      ∀ f : Forest, Forest.WellLevelled f →
        (Forest.marks f = d.marks ↔ Forest.bare f = Forest.bare d.outline)) ∧
    ∀ f : Forest, Forest.WellLevelled f → ∀ (text : Text) (stop : Row → Nat),
      let tokens := (Forest.walk f).map fun row =>
        (⟨.header row.node.level, row.node.start, stop row⟩ : Token)
      Forest.bare (outline ⟨text, tokens⟩) = Forest.bare f := by
  constructor
  · intro d
    refine ⟨d.wellLevelled_outline, fun f hf => ⟨bare_outline_of_marks hf, ?_⟩⟩
    intro hbare
    rw [← Forest.marks_bare, hbare, Forest.marks_bare, marks_outline]
  · intro f hf text stop tokens
    refine (bare_outline_of_marks hf ?_).symm
    show Forest.marks f = tokens.filterMap _
    rw [List.filterMap_map, Forest.marks, ← List.filterMap_eq_map]
    rfl

/-- A first root that is deeper than the second one, with children that skip levels and of which
    one has a child. -/
theorem outline_flattening_skipped_levels :
    let f : Forest := [⟨['a'], 4, 7, 7, []⟩, ⟨['b'], 1, 2, 9,
      [⟨['c'], 5, 3, 3, [⟨['d'], 200, 0, 0, []⟩]⟩, ⟨['e'], 3, 3, 1, []⟩]⟩]
    Forest.WellLevelled f ∧ ∀ text : Text,
      Forest.bare (outline ⟨text, [⟨.header 4, 7, 0⟩, ⟨.header 1, 2, 0⟩, ⟨.header 5, 3, 0⟩,
        ⟨.header 200, 0, 0⟩, ⟨.header 3, 3, 0⟩]⟩) = Forest.bare f := by
  intro f
  have hf : Forest.WellLevelled f := by simp [f, Forest.WellLevelled, Section.WellLevelled]
  refine ⟨hf, fun text => ?_⟩
  have hrebuilt := outline_flattening.2 f hf text fun _ => 0
  rwa [Forest.walk_eq_rows] at hrebuilt

end Document

end DocOutline
