import DocOutline.Proofs.Nesting
import DocOutline.Proofs.Tiling
import Mathlib.Data.List.TakeWhile

set_option autoImplicit false

/-! # Extents that tile the document

If the headings of a document stand in order, the extents of its sections fit together. Sections
that stand next to each other tile a stretch of bytes, each one starting where the one before it
ends (`Forest.Tiles`): the roots the bytes from the first heading on, the children of a section its
bytes from the first child on. Nothing else is needed for the invariants of an outline
(`Document.outline_invariants`).

That the roots tile is shown by induction on the headings, from the last to the first. A new heading
cuts the tiling of the later roots in two, at the first one that is not deeper: what comes before
the cut becomes the inside of the new section, which ends at the cut. -/

namespace DocOutline

open Text

/-! ## Forests that tile a stretch of bytes -/

/-- The sections follow one another without a gap, from byte `lo` up to byte `hi`, and none of them
    is empty. -/
inductive Forest.Tiles : Nat → Nat → Forest → Prop
  | nil (pos : Nat) : Tiles pos pos []
  | cons {lo hi : Nat} {s : Section} {rest : Forest} (hstart : s.start = lo) (hstop : lo ≤ s.stop)
      (h : Tiles (s.stop + 1) hi rest) : Tiles lo hi (s :: rest)

/-- The extents of the sections are a partition of the bytes from `lo` up to `hi`: none of them is
    empty, no two share a byte, and a byte is in one of them if it is one of these bytes. -/
structure Forest.Partitions (f : Forest) (lo hi : Nat) : Prop where
  nonempty : ∀ s ∈ f, ∃ offset, s.contains offset = true
  disjoint : f.Pairwise fun a b => ∀ offset, ¬ (a.contains offset = true ∧ b.contains offset = true)
  union : ∀ offset, (∃ s ∈ f, s.contains offset = true) ↔ lo ≤ offset ∧ offset < hi

/-- Every section ends on the byte before the next one. -/
def Forest.Abut (f : Forest) : Prop := f.IsChain fun a b => a.stop + 1 = b.start

theorem Section.contains_iff (s : Section) (offset : Nat) :
    s.contains offset = true ↔ s.start ≤ offset ∧ offset ≤ s.stop := by
  simp [Section.contains]

namespace Forest.Tiles

variable {lo hi : Nat} {f : Forest}

theorem le (h : Tiles lo hi f) : lo ≤ hi := by
  induction h with
  | nil => exact Nat.le_refl _
  | cons _ _ _ ih => omega

theorem bounds (h : Tiles lo hi f) :
    ∀ s ∈ f, lo ≤ s.start ∧ s.start ≤ s.stop ∧ s.stop < hi := by
  induction h with
  | nil => simp
  | cons hstart hstop h ih =>
    intro s hmem
    rcases List.mem_cons.1 hmem with rfl | hmem
    · exact ⟨Nat.le_of_eq hstart.symm, by omega, h.le⟩
    · obtain ⟨hlo, hle, hhi⟩ := ih s hmem
      exact ⟨by omega, hle, hhi⟩

theorem head_start (h : Tiles lo hi f) : ∀ s ∈ f.head?, s.start = lo := by
  cases h with
  | nil => simp
  | cons hstart _ _ =>
    intro s hs
    rw [List.head?_cons, Option.mem_some_iff] at hs
    rw [← hs, hstart]

theorem abut (h : Tiles lo hi f) : Forest.Abut f := by
  induction h with
  | nil => exact List.isChain_nil
  | cons _ _ h ih => exact ih.cons fun next hnext => (h.head_start next hnext).symm

theorem getLast_stop (h : Tiles lo hi f) : ∀ s ∈ f.getLast?, s.stop + 1 = hi := by
  induction h with
  | nil => simp
  | cons _ _ h ih =>
    intro last hlast
    cases h with
    | nil =>
      rw [List.getLast?_singleton, Option.mem_some_iff] at hlast
      rw [hlast]
    | cons _ _ _ =>
      rw [List.getLast?_cons_cons] at hlast
      exact ih last hlast

/-- A tiling can be cut between any two sections. -/
theorem split {g : Forest} (h : Tiles lo hi (f ++ g)) : ∃ mid, Tiles lo mid f ∧ Tiles mid hi g := by
  induction f generalizing lo with
  | nil => exact ⟨lo, .nil lo, h⟩
  | cons s f ih =>
    cases h with
    | cons hstart hstop h =>
      obtain ⟨mid, hf, hg⟩ := ih h
      exact ⟨mid, .cons hstart hstop hf, hg⟩

theorem pairwise_lt (h : Tiles lo hi f) : f.Pairwise fun a b => a.stop < b.start := by
  induction h with
  | nil => exact List.Pairwise.nil
  | cons _ _ h ih => exact List.Pairwise.cons (fun t ht => (h.bounds t ht).1) ih

/-- Every byte of the stretch is in one of the sections. -/
theorem exists_contains (h : Tiles lo hi f) {offset : Nat} (hlo : lo ≤ offset) (hhi : offset < hi) :
    ∃ s ∈ f, s.contains offset = true := by
  induction h with
  | nil => omega
  | @cons lo hi s rest hstart _ h ih =>
    by_cases hin : offset ≤ s.stop
    · exact ⟨s, List.mem_cons_self, (s.contains_iff _).2 ⟨by omega, hin⟩⟩
    · obtain ⟨t, ht, hin⟩ := ih (by omega) hhi
      exact ⟨t, List.mem_cons_of_mem s ht, hin⟩

theorem partitions (h : Tiles lo hi f) : f.Partitions lo hi := by
  refine ⟨?_, ?_, ?_⟩
  · intro s hs
    exact ⟨s.start, (s.contains_iff _).2 ⟨Nat.le_refl _, (h.bounds s hs).2.1⟩⟩
  · refine h.pairwise_lt.imp fun {a b} hlt offset hboth => ?_
    rw [Section.contains_iff, Section.contains_iff] at hboth
    omega
  · intro offset
    constructor
    · rintro ⟨s, hs, hin⟩
      obtain ⟨hlo, -, hhi⟩ := h.bounds s hs
      rw [Section.contains_iff] at hin
      omega
    · rintro ⟨hlo, hhi⟩
      exact h.exists_contains hlo hhi

end Forest.Tiles

/-! ## Headings in order -/

/-- The headings start at increasing offsets, inside a document of `length` bytes. -/
structure Heading.Ordered (length : Nat) (headings : List Heading) : Prop where
  ascending : headings.Pairwise fun a b => a.start < b.start
  inside : ∀ h ∈ headings, h.start < length

/-- Where the first of the headings starts, or where the document ends if there are none. -/
def Heading.firstStart (length : Nat) (headings : List Heading) : Nat :=
  match headings with
  | [] => length
  | h :: _ => h.start

theorem Heading.Ordered.of_append {length : Nat} {front back : List Heading}
    (h : Heading.Ordered length (front ++ back)) : Heading.Ordered length back :=
  ⟨(List.pairwise_append.1 h.ascending).2.1,
    fun k hk => h.inside k (List.mem_append_right front hk)⟩

theorem Heading.Ordered.lt_firstStart {length : Nat} {h : Heading} {later : List Heading}
    (hord : Heading.Ordered length (h :: later)) : h.start < Heading.firstStart length later := by
  cases later with
  | nil => exact hord.inside h List.mem_cons_self
  | cons k later => exact List.rel_of_pairwise_cons hord.ascending List.mem_cons_self

/-- The last byte of a section is the one before the heading that ends it. -/
theorem Heading.toSection_stop_eq (length : Nat) (h : Heading) (later : List Heading) :
    (h.toSection length later).stop
      = Heading.firstStart length (Heading.skipDeeper h.level later) - 1 := by
  rw [Heading.toSection_stop]
  cases Heading.skipDeeper h.level later <;> rfl

/-- A tiling by the roots of some headings starts where the first of them does. -/
theorem Forest.Tiles.eq_firstStart {length mid : Nat} {headings : List Heading}
    (h : Forest.Tiles mid length (Forest.ofHeadings length headings)) :
    mid = Heading.firstStart length headings := by
  cases headings with
  | nil => cases h with | nil => rfl
  | cons k later =>
    rw [Forest.ofHeadings_cons] at h
    exact (h.head_start _ rfl).symm

/-- A new heading in front of a tiling: the inside of its section and what stands beside it are
    tiled, and the section ends between the two. -/
theorem Heading.Ordered.tiles_toSection {length : Nat} {h : Heading} {later : List Heading}
    (hord : Heading.Ordered length (h :: later))
    (htiles : Forest.Tiles (Heading.firstStart length later) length
      (Forest.ofHeadings length later)) :
    h.start ≤ (h.toSection length later).stop ∧
    Forest.Tiles (Heading.firstStart length later) ((h.toSection length later).stop + 1)
      (h.toSection length later).children ∧
    Forest.Tiles ((h.toSection length later).stop + 1) length
      (Forest.ofHeadings length (Heading.skipDeeper h.level later)) := by
  rw [← Heading.children_append length h later] at htiles
  obtain ⟨mid, hinside, hbeside⟩ := htiles.split
  have hstop := Heading.toSection_stop_eq length h later
  rw [← hbeside.eq_firstStart] at hstop
  have hle := hinside.le
  have hlt := hord.lt_firstStart
  have hmid : (h.toSection length later).stop + 1 = mid := by omega
  rw [hmid]
  exact ⟨by omega, hinside, hbeside⟩

/-- The roots of headings in order tile the document from the first heading on. -/
theorem Heading.Ordered.tiles {length : Nat} {headings : List Heading}
    (hord : Heading.Ordered length headings) :
    Forest.Tiles (Heading.firstStart length headings) length
      (Forest.ofHeadings length headings) := by
  induction headings with
  | nil => exact .nil length
  | cons h later ih =>
    have hlater : Heading.Ordered length later := @Heading.Ordered.of_append length [h] later hord
    obtain ⟨hstart, -, hbeside⟩ := hord.tiles_toSection (ih hlater)
    rw [Forest.ofHeadings_cons]
    exact .cons rfl hstart hbeside

/-! ## Every section of the outline -/

/-- A section of the outline is what its heading becomes in front of the headings after it. -/
theorem Document.exists_toSection {d : Document} {row : Row} (h : row ∈ Forest.walk d.outline) :
    ∃ front first later, d.headings = front ++ first :: later ∧
      row.node = first.toSection (byteLength d.text) later := by
  obtain ⟨i, hi⟩ := List.getElem?_of_mem h
  have hnode := Forest.node_rows_ofHeadings (byteLength d.text) 0 d.headings i
  rw [← Document.outline_eq, ← Forest.walk_eq_rows, List.getElem?_map, hi, Option.map_some,
    eq_comm, Option.map_eq_some_iff] at hnode
  obtain ⟨first, hfirst, hnode⟩ := hnode
  obtain ⟨hlt, rfl⟩ := List.getElem?_eq_some_iff.1 hfirst
  refine ⟨d.headings.take i, d.headings[i], d.headings.drop (i + 1), ?_, hnode.symm⟩
  rw [← List.drop_eq_getElem_cons hlt, List.take_append_drop]

/-- The children of a section are deeper than it. -/
theorem Heading.level_lt_of_mem_children {length : Nat} {h : Heading} {later : List Heading}
    {child : Section} (hchild : child ∈ (h.toSection length later).children) :
    h.level < child.level := by
  have hdeeper := List.mem_takeWhile_imp (p := fun s : Section => decide (h.level < s.level)) hchild
  exact of_decide_eq_true hdeeper

namespace Document

/-- The header tokens start at increasing offsets, inside the text. -/
def HeadersAscend (d : Document) : Prop :=
  (d.headers.Pairwise fun a b => a.start < b.start) ∧ ∀ t ∈ d.headers, t.start < byteLength d.text

theorem map_start_headings (d : Document) :
    d.headings.map Heading.start = d.headers.map Token.start := by
  apply List.ext_getElem?
  intro i
  rw [List.getElem?_map, List.getElem?_map]
  cases hi : d.headers[i]? with
  | none => rw [getElem?_headings, hi]; rfl
  | some t =>
    obtain ⟨level, -, hheading⟩ := exists_heading hi
    rw [hheading]
    rfl

theorem HeadersAscend.ordered {d : Document} (h : d.HeadersAscend) :
    Heading.Ordered (byteLength d.text) d.headings := by
  obtain ⟨hasc, hinside⟩ := h
  refine ⟨?_, fun k hk => ?_⟩
  · rw [← List.pairwise_map (R := (· < ·)), map_start_headings, List.pairwise_map]
    exact hasc
  · have hmem := List.mem_map_of_mem (f := Heading.start) hk
    rw [map_start_headings] at hmem
    obtain ⟨t, ht, hstart⟩ := List.mem_map.1 hmem
    rw [← hstart]
    exact hinside t ht

/-- The roots of the outline tile the text from the first heading on. -/
theorem HeadersAscend.tiles_outline {d : Document} (h : d.HeadersAscend) :
    Forest.Tiles (Heading.firstStart (byteLength d.text) d.headings) (byteLength d.text)
      d.outline := by
  rw [outline_eq]
  exact h.ordered.tiles

/-- The first heading starts where the first header does. -/
theorem firstStart_headings {d : Document} {t : Token} (h : d.headers.head? = some t)
    (length : Nat) : Heading.firstStart length d.headings = t.start := by
  have hhead := congrArg List.head? d.map_start_headings
  rw [List.head?_map, List.head?_map, h, Option.map_some] at hhead
  cases hheadings : d.headings with
  | nil => rw [hheadings] at hhead; simp at hhead
  | cons first later =>
    rw [hheadings, List.head?_cons, Option.map_some, Option.some.injEq] at hhead
    exact hhead

end Document

/-! ## Documents that are read from a text -/

/-- Tokens that cover a text start at increasing offsets. -/
theorem Token.Covers.pairwise_start {pos : Nat} {tokens : List Token} {t : Text}
    (h : Token.Covers pos tokens t) : tokens.Pairwise fun a b => a.start < b.start := by
  induction h with
  | nil => exact List.Pairwise.nil
  | @cons pos kind part rest tokens hne h ih =>
    refine List.Pairwise.cons (fun token hmem => ?_) ih
    have hnext := h.le_start token hmem
    have hpart := byteLength_pos hne
    show pos < token.start
    omega

theorem Token.Covers.start_lt {pos : Nat} {tokens : List Token} {t : Text}
    (h : Token.Covers pos tokens t) : ∀ token ∈ tokens, token.start < pos + byteLength t := by
  induction h with
  | nil => simp
  | @cons pos kind part rest tokens hne h ih =>
    intro token hmem
    have hpart := byteLength_pos hne
    rw [byteLength_append]
    rcases List.mem_cons.1 hmem with rfl | hmem
    · show pos < _
      omega
    · have hlt := ih token hmem
      omega

namespace Document

theorem headersAscend_ofText (rules : HeadingRules) (text : Text) :
    (ofText rules text).HeadersAscend := by
  have hcovers := rules.stream_covers text
  refine ⟨hcovers.pairwise_start.filter _, fun t ht => ?_⟩
  have hlt := hcovers.start_lt t (List.mem_filter.1 ht).1
  rwa [Nat.zero_add] at hlt

/-- **Invariants of an outline.** For every document whose headers start at increasing offsets
    inside the text, and so for every document that is read from a text:

    * a section starts no later than it ends, and ends inside the text;
    * a child is deeper than its section, starts after it and ends no later;
    * sections that stand next to each other abut, the last child ends with its section, and the
      last root with the text;
    * the roots partition the bytes of the text from the first heading on, and the children of a
      section its bytes from the first child on. -/
theorem outline_invariants :
    (∀ d : Document, d.HeadersAscend →
      (∀ row ∈ Forest.walk d.outline,
        (row.node.start ≤ row.node.stop ∧ row.node.stop < byteLength d.text) ∧
        (∀ child ∈ row.node.children, row.node.level < child.level ∧
          row.node.start < child.start ∧ child.stop ≤ row.node.stop) ∧
        Forest.Abut row.node.children ∧
        (∀ last ∈ row.node.children.getLast?, last.stop = row.node.stop) ∧
        ∀ first ∈ row.node.children.head?,
          Forest.Partitions row.node.children first.start (row.node.stop + 1)) ∧
      Forest.Abut d.outline ∧
      (∀ last ∈ d.outline.getLast?, last.stop + 1 = byteLength d.text) ∧
      ∀ first ∈ d.headers.head?, Forest.Partitions d.outline first.start (byteLength d.text)) ∧
    ∀ (rules : HeadingRules) (text : Text), (ofText rules text).HeadersAscend := by
  refine ⟨fun d hasc => ?_, headersAscend_ofText⟩
  have hord := hasc.ordered
  have hroots := hasc.tiles_outline
  refine ⟨fun row hrow => ?_, hroots.abut, hroots.getLast_stop, fun first hfirst => ?_⟩
  · obtain ⟨front, h, later, hheadings, hnode⟩ := exists_toSection hrow
    rw [hheadings] at hord
    have hsuffix : Heading.Ordered (byteLength d.text) (h :: later) := hord.of_append
    have hlater := @Heading.Ordered.of_append _ [h] later hsuffix
    obtain ⟨hstart, hinside, hbeside⟩ := hsuffix.tiles_toSection hlater.tiles
    rw [hnode]
    refine ⟨⟨hstart, hbeside.le⟩, fun child hchild => ?_, hinside.abut, ?_, fun first hfirst => ?_⟩
    · obtain ⟨hlo, -, hhi⟩ := hinside.bounds child hchild
      exact ⟨Heading.level_lt_of_mem_children hchild, Nat.lt_of_lt_of_le hsuffix.lt_firstStart hlo,
        Nat.le_of_lt_succ hhi⟩
    · intro last hlast
      exact Nat.succ.inj (hinside.getLast_stop last hlast)
    · rw [hinside.head_start first hfirst]
      exact hinside.partitions
  · rw [← firstStart_headings hfirst (byteLength d.text)]
    exact hroots.partitions

/-- Headings that start in the middle of a line: the last two are the children of the first, and
    share its bytes from the second on. -/
theorem outline_invariants_inside_line :
    let d : Document := ⟨['x', 'y', 'z', 'é'],
      [⟨.header 2, 1, 4⟩, ⟨.header 5, 2, 3⟩, ⟨.other, 0, 2⟩, ⟨.header 3, 3, 9⟩]⟩
    let root : Section := ⟨[], 2, 1, 4, [⟨['z'], 5, 2, 2, []⟩, ⟨[], 3, 3, 4, []⟩]⟩
    d.HeadersAscend ∧ d.headers.head? = some ⟨.header 2, 1, 4⟩ ∧
    ⟨0, root⟩ ∈ Forest.walk d.outline ∧ Forest.Partitions d.outline 1 5 ∧
    Forest.Abut root.children ∧ Forest.Partitions root.children 2 5 := by
  intro d root
  have hasc : d.HeadersAscend := by
    unfold HeadersAscend
    decide
  have hfirst : d.headers.head? = some ⟨.header 2, 1, 4⟩ := by decide
  have hrow : ⟨0, root⟩ ∈ Forest.walk d.outline := by
    rw [Forest.walk_eq_rows]
    exact List.mem_cons_self
  obtain ⟨hrows, -, -, hroots⟩ := outline_invariants.1 d hasc
  obtain ⟨-, -, habut, -, hchildren⟩ := hrows _ hrow
  exact ⟨hasc, hfirst, hrow, hroots _ hfirst, habut, hchildren _ rfl⟩

end Document

end DocOutline
