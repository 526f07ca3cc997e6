import DocOutline.Proofs.Extents
import DocOutline.Section.Query

set_option autoImplicit false

/-! # What stands at an offset

Both queries go down from the roots and take, at every level, the first section that holds the
offset. `Forest.visited` lists the sections that they pass, and `Forest.trail` the numbers of these
sections in reading order; what the queries answer, and that the numbers go from parent to child, is
true of every forest.

In the outline of headings in order nothing is missed on the way down: the sections that are passed
are all sections of the outline that hold the offset (`Forest.trail_ofHeadings`). The innermost one
is that of the last heading before the offset (`Document.outline_breadcrumbs`). -/

namespace DocOutline

open Text

/-! ## The way down -/

mutual
/-- The sections that the search for an offset passes from a section at the given depth down, which
    is taken to hold the offset. -/
def Section.visited (offset depth : Nat) : Section → List Row
  | ⟨name, level, start, stop, children⟩ =>
    ⟨depth, ⟨name, level, start, stop, children⟩⟩ :: Forest.visited offset (depth + 1) children

/-- The sections that the search for an offset passes in a forest with roots at the given depth. -/
def Forest.visited (offset depth : Nat) : List Section → List Row
  | [] => []
  | s :: rest =>
    if s.contains offset then s.visited offset depth else Forest.visited offset depth rest
end

mutual
/-- The numbers of the sections that the search for an offset passes from a section down, if the
    section has the number `index`. -/
def Section.trail (offset index : Nat) : Section → List Nat
  | ⟨_, _, _, _, children⟩ => index :: Forest.trail offset (index + 1) children

/-- The numbers of the sections that the search for an offset passes in a forest, if the numbers
    start at `index`. -/
def Forest.trail (offset index : Nat) : List Section → List Nat
  | [] => []
  | s :: rest =>
    if s.contains offset then s.trail offset index else Forest.trail offset (index + s.size) rest
end

theorem Section.trail_eq (offset index : Nat) (s : Section) :
    s.trail offset index = index :: Forest.trail offset (index + 1) s.children := by
  cases s; rfl

theorem Section.visited_eq (offset depth : Nat) (s : Section) :
    s.visited offset depth = ⟨depth, s⟩ :: Forest.visited offset (depth + 1) s.children := by
  cases s
  rfl

theorem Section.visited_ne_nil (offset depth : Nat) (s : Section) :
    s.visited offset depth ≠ [] := by
  rw [Section.visited_eq]
  exact List.cons_ne_nil _ _

mutual
theorem Section.pathAt_eq (offset depth : Nat) :
    ∀ s : Section, s.pathAt offset = (s.visited offset depth).map (·.node.name)
  | ⟨name, level, start, stop, children⟩ => by
    rw [Section.pathAt, Section.visited, List.map_cons,
      Forest.pathAt_eq offset (depth + 1) children]

/-- The titles at an offset are those of the sections that are passed. -/
theorem Forest.pathAt_eq (offset depth : Nat) :
    ∀ f : List Section, Forest.pathAt offset f = (Forest.visited offset depth f).map (·.node.name)
  | [] => rfl
  | s :: rest => by
    rw [Forest.pathAt, Forest.visited]
    split
    · exact Section.pathAt_eq offset depth s
    · exact Forest.pathAt_eq offset depth rest
end

mutual
theorem Section.findAt_eq (offset depth : Nat) :
    ∀ s : Section, s.findAt offset
      = if s.contains offset then (s.visited offset depth).getLast?.map Row.node else none
  | ⟨name, level, start, stop, children⟩ => by
    rw [Section.findAt, Forest.findAt_eq offset (depth + 1) children, Section.visited]
    cases hinner : (Forest.visited offset (depth + 1) children).getLast? with
    | none => simp [List.getLast?_cons, hinner]
    | some row => simp [List.getLast?_cons, hinner]

/-- The section at an offset is the last one that is passed. -/
theorem Forest.findAt_eq (offset depth : Nat) :
    ∀ f : List Section,
      Forest.findAt offset f = (Forest.visited offset depth f).getLast?.map Row.node
  | [] => rfl
  | s :: rest => by
    rw [Forest.findAt, Section.findAt_eq offset depth s, Forest.visited]
    by_cases hin : s.contains offset = true
    · obtain ⟨row, hrow⟩ : ∃ row, (s.visited offset depth).getLast? = some row :=
        ⟨_, List.getLast?_eq_some_getLast (s.visited_ne_nil offset depth)⟩
      rw [if_pos hin, if_pos hin, hrow, Option.map_some]
    · rw [if_neg hin, if_neg hin]
      exact Forest.findAt_eq offset depth rest
end

/-! ## Numbers of the sections on the way -/

mutual
theorem Section.map_getElem?_trail (offset depth : Nat) :
    ∀ (s : Section) (before after : List Row),
      (s.trail offset before.length).map (fun i => (before ++ (s.rows depth ++ after))[i]?)
        = (s.visited offset depth).map some
  | ⟨name, level, start, stop, children⟩, before, after => by
    have hinside := Forest.map_getElem?_trail offset (depth + 1) children
      (before ++ [⟨depth, ⟨name, level, start, stop, children⟩⟩]) after
    rw [List.length_append, List.length_singleton, List.append_assoc] at hinside
    rw [Section.trail, Section.visited, Section.rows, List.map_cons, List.map_cons]
    refine congrArg₂ List.cons ?_ hinside
    rw [List.getElem?_append_right (Nat.le_refl _), Nat.sub_self]
    rfl

/-- The numbers on the way, looked up in a list that holds the rows of the forest from the number
    of the first root on, give the sections that are passed. -/
theorem Forest.map_getElem?_trail (offset depth : Nat) :
    ∀ (f : List Section) (before after : List Row),
      (Forest.trail offset before.length f).map
          (fun i => (before ++ (Forest.rows depth f ++ after))[i]?)
        = (Forest.visited offset depth f).map some
  | [], before, after => rfl
  | s :: rest, before, after => by
    rw [Forest.trail, Forest.visited, Forest.rows, List.append_assoc]
    split
    · exact Section.map_getElem?_trail offset depth s before _
    · have hrest := Forest.map_getElem?_trail offset depth rest (before ++ s.rows depth) after
      rwa [List.length_append, Section.length_rows, List.append_assoc] at hrest
end

/-- Each number has the one before it as its parent, and the first has the parent `parent`. -/
def Lineage (parents : List (Option Nat)) : Option Nat → List Nat → Prop
  | _, [] => True
  | parent, i :: rest => parents[i]? = some parent ∧ Lineage parents (some i) rest

mutual
theorem Section.lineage_trail (offset : Nat) :
    ∀ (s : Section) (parent : Option Nat) (before after : List (Option Nat)),
      Lineage (before ++ (s.parents parent before.length ++ after)) parent
        (s.trail offset before.length)
  | ⟨name, level, start, stop, children⟩, parent, before, after => by
    have hinside := Forest.lineage_trail offset children (some before.length) (before ++ [parent])
      after
    rw [List.length_append, List.length_singleton, List.append_assoc] at hinside
    rw [Section.trail, Section.parents]
    refine ⟨?_, hinside⟩
    rw [List.getElem?_append_right (Nat.le_refl _), Nat.sub_self]
    rfl

/-- The search goes from a section to one of its children. -/
theorem Forest.lineage_trail (offset : Nat) :
    ∀ (f : List Section) (parent : Option Nat) (before after : List (Option Nat)),
      Lineage (before ++ (Forest.parents parent before.length f ++ after)) parent
        (Forest.trail offset before.length f)
  | [], parent, before, after => trivial
  | s :: rest, parent, before, after => by
    rw [Forest.trail, Forest.parents, List.append_assoc]
    split
    · exact Section.lineage_trail offset s parent before _
    · have hrest := Forest.lineage_trail offset rest parent
        (before ++ s.parents parent before.length) after
      rwa [List.length_append, Section.length_parents, List.append_assoc] at hrest
end

theorem Forest.trail_append_of_none {offset : Nat} {f : Forest}
    (h : ∀ s ∈ f, s.contains offset = false) (index : Nat) (g : Forest) :
    Forest.trail offset index (f ++ g) = Forest.trail offset (index + Forest.size f) g := by
  induction f generalizing index with
  | nil => rfl
  | cons s f ih =>
    obtain ⟨hs, hf⟩ := List.forall_mem_cons.1 h
    rw [List.cons_append, Forest.trail, hs, if_neg Bool.false_ne_true, ih hf, Forest.size,
      Nat.add_assoc]

theorem Forest.trail_append_of_none_right {offset : Nat} {g : Forest}
    (h : ∀ s ∈ g, s.contains offset = false) (index : Nat) (f : Forest) :
    Forest.trail offset index (f ++ g) = Forest.trail offset index f := by
  induction f generalizing index with
  | nil => simpa [Forest.trail] using Forest.trail_append_of_none h index []
  | cons s f ih => rw [List.cons_append, Forest.trail, Forest.trail, ih]

/-! ## Nothing is missed -/

/-- A section outside of a stretch of bytes that a forest tiles. -/
theorem Forest.Tiles.contains_eq_false {lo hi offset : Nat} {f : Forest} (h : Forest.Tiles lo hi f)
    (hout : offset < lo ∨ hi ≤ offset) : ∀ s ∈ f, s.contains offset = false := by
  intro s hs
  obtain ⟨hlo, -, hhi⟩ := h.bounds s hs
  rw [← Bool.not_eq_true, Section.contains_iff]
  omega

/-- A new heading in front changes the way down to an offset only if its section holds the offset,
    and then it comes first. -/
theorem Heading.Ordered.trail_cons {length : Nat} {h : Heading} {later : List Heading}
    (hord : Heading.Ordered length (h :: later)) (offset index : Nat) :
    Forest.trail offset index (Forest.ofHeadings length (h :: later))
      = if (h.toSection length later).contains offset then
          index :: Forest.trail offset (index + 1) (Forest.ofHeadings length later)
        else Forest.trail offset (index + 1) (Forest.ofHeadings length later) := by
  have hlater : Heading.Ordered length later := @Heading.Ordered.of_append length [h] later hord
  obtain ⟨-, hinside, hbeside⟩ := hord.tiles_toSection hlater.tiles
  have hlt := hord.lt_firstStart
  rw [Forest.ofHeadings_cons, Forest.trail, ← Heading.children_append length h later]
  by_cases hin : (h.toSection length later).contains offset = true
  · -- what stands beside the section starts after the offset
    have hstop := ((Section.contains_iff _ _).1 hin).2
    rw [if_pos hin, if_pos hin, Section.trail_eq,
      Forest.trail_append_of_none_right (hbeside.contains_eq_false (Or.inl (by omega)))]
  · -- what stands inside the section does not hold the offset either
    have hout := mt (Section.contains_iff _ _).2 hin
    rw [Heading.toSection_start] at hout
    rw [if_neg hin, if_neg hin,
      Forest.trail_append_of_none (hinside.contains_eq_false (by omega)), Section.size_eq,
      Nat.add_assoc, Nat.add_comm 1]

/-- In the outline of headings in order, the search passes all sections that hold the offset. -/
theorem Forest.trail_ofHeadings {length : Nat} {headings : List Heading}
    (hord : Heading.Ordered length headings) (offset depth index : Nat) :
    Forest.trail offset index (Forest.ofHeadings length headings)
      = ((Forest.rows depth (Forest.ofHeadings length headings)).map Row.node).findIdxs
          (fun s => s.contains offset) index := by
  induction headings generalizing index with
  | nil => rfl
  | cons h later ih =>
    have hlater : Heading.Ordered length later := @Heading.Ordered.of_append length [h] later hord
    rw [hord.trail_cons, Forest.map_node_rows_ofHeadings_cons, List.findIdxs_cons, ih hlater]

/-! ## The last heading before an offset -/

/-- The section of the last heading before an offset holds the offset. -/
theorem Heading.toSection_contains {length offset : Nat} {h : Heading} {later : List Heading}
    (hstart : h.start ≤ offset) (hlength : offset < length)
    (hlater : ∀ k ∈ later, offset < k.start) :
    (h.toSection length later).contains offset = true := by
  rw [Section.contains_iff, Heading.toSection_start, Heading.toSection_stop_eq]
  refine ⟨hstart, Nat.le_sub_one_of_lt ?_⟩
  have hsub : Heading.skipDeeper h.level later ⊆ later := List.dropWhile_subset _
  cases hskip : Heading.skipDeeper h.level later with
  | nil => exact hlength
  | cons k rest => exact hlater k (hsub (by rw [hskip]; exact List.mem_cons_self))

/-- The last entry of an increasing list is the greatest. -/
theorem getLast?_of_pairwise_lt {l : List Nat} (hlt : l.Pairwise (· < ·)) {i : Nat} (hi : i ∈ l)
    (hmax : ∀ j ∈ l, j ≤ i) : l.getLast? = some i := by
  obtain ⟨last, hlast⟩ : ∃ last, l.getLast? = some last :=
    ⟨_, List.getLast?_eq_some_getLast (List.ne_nil_of_mem hi)⟩
  obtain ⟨front, rfl⟩ := List.getLast?_eq_some_iff.1 hlast
  have hle := hmax last (by simp)
  rcases List.mem_append.1 hi with hfront | hsame
  · have := (List.pairwise_append.1 hlt).2.2 i hfront last (by simp)
    omega
  · rw [hlast, List.mem_singleton.1 hsame]

/-- If some entry of a list satisfies a condition, there is a last one that does. -/
theorem exists_last_getElem? {α : Type} {p : α → Prop} {l : List α} (h : ∃ a ∈ l, p a) :
    ∃ (i : Nat) (a : α), l[i]? = some a ∧ p a ∧
      ∀ (j : Nat) (b : α), i < j → l[j]? = some b → ¬ p b := by
  induction l with
  | nil => simp at h
  | cons a l ih =>
    by_cases hlater : ∃ b ∈ l, p b
    · obtain ⟨i, b, hi, hb, hmax⟩ := ih hlater
      refine ⟨i + 1, b, hi, hb, fun j c hj hc => ?_⟩
      cases j with
      | zero => omega
      | succ j => exact hmax j c (by omega) hc
    · have hfirst : p a := by
        obtain ⟨b, hb, hpb⟩ := h
        rcases List.mem_cons.1 hb with rfl | hb
        · exact hpb
        · exact absurd ⟨b, hb, hpb⟩ hlater
      refine ⟨0, a, rfl, hfirst, fun j b hj hb hpb => ?_⟩
      cases j with
      | zero => omega
      | succ j => exact hlater ⟨b, List.mem_of_getElem? hb, hpb⟩

namespace Document

/-- The numbers of all sections of the outline that hold the offset, in reading order. -/
def holding (d : Document) (offset : Nat) : List Nat :=
  (Forest.walk d.outline).findIdxs fun row => row.node.contains offset

theorem HeadersAscend.trail_outline {d : Document} (h : d.HeadersAscend) (offset : Nat) :
    Forest.trail offset 0 d.outline = d.holding offset := by
  rw [holding, outline_eq, Forest.trail_ofHeadings h.ordered offset 0 0, List.findIdxs_map,
    Forest.walk_eq_rows]
  rfl

/-- The numbers of the sections that hold the offset, looked up in the walk, give the sections that
    the search passes. -/
theorem HeadersAscend.map_getElem?_holding {d : Document} (h : d.HeadersAscend) (offset : Nat) :
    (d.holding offset).map (fun i => (Forest.walk d.outline)[i]?)
      = (Forest.visited offset 0 d.outline).map some := by
  have hvisited := Forest.map_getElem?_trail offset 0 d.outline [] []
  rwa [List.append_nil, List.nil_append, ← Forest.walk_eq_rows, List.length_nil,
    h.trail_outline] at hvisited

theorem HeadersAscend.lineage_holding {d : Document} (h : d.HeadersAscend) (offset : Nat) :
    Lineage (Forest.parents none 0 d.outline) none (d.holding offset) := by
  have hlineage := Forest.lineage_trail offset d.outline none [] []
  rwa [List.append_nil, List.nil_append, List.length_nil, h.trail_outline] at hlineage

/-- Before the first header and past the end of the text no section is passed. -/
theorem HeadersAscend.visited_eq_nil {d : Document} (h : d.HeadersAscend) {offset : Nat}
    (hout : byteLength d.text ≤ offset ∨ ∀ t ∈ d.headers, offset < t.start) :
    Forest.visited offset 0 d.outline = [] := by
  have hoff : offset < Heading.firstStart (byteLength d.text) d.headings ∨
      byteLength d.text ≤ offset := by
    rcases hout with hend | hbefore
    · exact Or.inr hend
    · cases hheaders : d.headers with
      | nil =>
        have hnil : d.headings = [] := by
          rw [← List.length_eq_zero_iff, length_headings, hheaders, List.length_nil]
        rw [hnil]
        exact Nat.lt_or_ge offset (byteLength d.text)
      | cons t rest =>
        rw [firstStart_headings (t := t) (by rw [hheaders]; rfl)]
        exact Or.inl (hbefore t (by rw [hheaders]; exact List.mem_cons_self))
  have hnone : Forest.trail offset 0 (d.outline ++ []) = [] :=
    Forest.trail_append_of_none (h.tiles_outline.contains_eq_false hoff) 0 []
  have hvisited := h.map_getElem?_holding offset
  rw [List.append_nil, h.trail_outline] at hnone
  rw [hnone, List.map_nil] at hvisited
  exact List.map_eq_nil_iff.1 hvisited.symm

/-- Every row of the walk comes from the header with the same number. -/
theorem exists_header {d : Document} {i : Nat} {row : Row}
    (hrow : (Forest.walk d.outline)[i]? = some row) :
    ∃ t, d.headers[i]? = some t ∧ row.node.start = t.start := by
  have hi := (List.getElem?_eq_some_iff.1 hrow).1
  rw [Forest.walk_eq_rows, Forest.length_rows, outline_eq, Forest.size_ofHeadings,
    length_headings] at hi
  obtain ⟨_, row', -, hrow', -, hnode⟩ := exists_row (List.getElem?_eq_getElem hi)
  rw [hrow, Option.some.injEq] at hrow'
  exact ⟨_, List.getElem?_eq_getElem hi, by rw [hrow', hnode, Heading.toSection_start]⟩

/-- The last section that holds an offset is that of the last header before the offset. -/
theorem getLast?_holding {d : Document} {offset i : Nat} {t : Token}
    (ht : d.headers[i]? = some t) (hstart : t.start ≤ offset)
    (hlength : offset < byteLength d.text)
    (hlater : ∀ j u, i < j → d.headers[j]? = some u → offset < u.start) :
    (d.holding offset).getLast? = some i := by
  obtain ⟨level, row, -, hrow, -, hnode⟩ := exists_row ht
  have hstarts : ∀ k ∈ d.headings.drop (i + 1), offset < k.start := by
    intro k hk
    obtain ⟨m, hm⟩ := List.getElem?_of_mem hk
    have hkstart := congrArg (·[i + 1 + m]?) d.map_start_headings
    rw [List.getElem?_drop] at hm
    simp only [List.getElem?_map, hm, Option.map_some] at hkstart
    obtain ⟨u, hu, hustart⟩ := Option.map_eq_some_iff.1 hkstart.symm
    rw [← hustart]
    exact hlater _ u (by omega) hu
  have hholds : row.node.contains offset = true := by
    rw [hnode]
    exact Heading.toSection_contains hstart hlength hstarts
  obtain ⟨hi, rfl⟩ := List.getElem?_eq_some_iff.1 hrow
  refine getLast?_of_pairwise_lt List.pairwise_findIdxs ?_ fun j hj => ?_
  · exact List.mem_findIdxs_iff_exists_getElem_pos.2 ⟨hi, hholds⟩
  · obtain ⟨hjlt, hjholds⟩ := List.mem_findIdxs_iff_exists_getElem_pos.1 hj
    obtain ⟨u, hu, hustart⟩ := exists_header (List.getElem?_eq_getElem hjlt)
    have hle := ((Section.contains_iff _ _).1 hjholds).1
    by_contra hlt
    have := hlater j u (by omega) hu
    omega

/-- **Breadcrumbs.** For every document whose headers start at increasing offsets inside the text,
    and so for every document that is read from a text, and for every offset:

    * past the end of the text and before the first heading there is no section and no title;
    * anywhere else, the section at the offset is that of the last header that starts at or before
      it. The sections that hold the offset, among all sections of the outline, are this one and its
      ancestors from a root down, and the titles at the offset are theirs. -/
theorem outline_breadcrumbs :
    (∀ d : Document, d.HeadersAscend → ∀ offset : Nat,
      let rows := Forest.walk d.outline
      (byteLength d.text ≤ offset ∨ (∀ t ∈ d.headers, offset < t.start) →
        Forest.findAt offset d.outline = none ∧ Forest.pathAt offset d.outline = []) ∧
      (offset < byteLength d.text → (∃ t ∈ d.headers, t.start ≤ offset) →
        ∃ i t row, d.headers[i]? = some t ∧ t.start ≤ offset ∧
          (∀ j u, i < j → d.headers[j]? = some u → offset < u.start) ∧
          rows[i]? = some row ∧ row.node.start = t.start ∧
          Forest.findAt offset d.outline = some row.node ∧
          Lineage (Forest.parents none 0 d.outline) none (d.holding offset) ∧
          (d.holding offset).getLast? = some i ∧
          (Forest.pathAt offset d.outline).map some
            = (d.holding offset).map fun j => rows[j]?.map (·.node.name))) ∧
    ∀ (rules : HeadingRules) (text : Text), (ofText rules text).HeadersAscend := by
  refine ⟨?_, headersAscend_ofText⟩
  intro d hasc offset rows
  have hvisited := hasc.map_getElem?_holding offset
  constructor
  · intro hout
    have hnone := hasc.visited_eq_nil hout
    rw [Forest.findAt_eq offset 0, Forest.pathAt_eq offset 0, hnone]
    exact ⟨rfl, rfl⟩
  · intro hlength hsome
    obtain ⟨i, t, ht, hstart, hlast⟩ := exists_last_getElem? hsome
    have hlater : ∀ j u, i < j → d.headers[j]? = some u → offset < u.start :=
      fun j u hj hu => Nat.not_le.1 (hlast j u hj hu)
    obtain ⟨level, row, -, hrow, -, hnode⟩ := exists_row ht
    have hend := getLast?_holding ht hstart hlength hlater
    refine ⟨i, t, row, ht, hstart, hlater, hrow, ?_, ?_, hasc.lineage_holding offset, hend, ?_⟩
    · rw [hnode, Heading.toSection_start]
    · have hfound := congrArg List.getLast? hvisited
      rw [List.getLast?_map, List.getLast?_map, hend, Option.map_some, hrow, eq_comm,
        Option.map_eq_some_iff] at hfound
      obtain ⟨last, hlast, hsame⟩ := hfound
      rw [Forest.findAt_eq offset 0, hlast, Option.map_some, Option.some.inj hsame]
    · have hnames := congrArg (List.map (Option.map fun row => row.node.name)) hvisited
      rw [List.map_map, List.map_map] at hnames
      rw [Forest.pathAt_eq offset 0, List.map_map]
      exact hnames.symm

/-- The last byte of a character of two bytes, inside the second child of a root, and a byte before
    the first heading. -/
theorem outline_breadcrumbs_second_child :
    let d : Document := ⟨['a', 'b', 'c', 'é', 'd'],
      [⟨.header 1, 1, 2⟩, ⟨.other, 0, 1⟩, ⟨.header 4, 2, 3⟩, ⟨.header 2, 3, 5⟩]⟩
    d.HeadersAscend ∧ 4 < byteLength d.text ∧ (∃ t ∈ d.headers, t.start ≤ 4) ∧
    (∃ i row, (Forest.walk d.outline)[i]? = some row ∧
      Forest.findAt 4 d.outline = some row.node ∧
      Lineage (Forest.parents none 0 d.outline) none (d.holding 4) ∧
      (d.holding 4).getLast? = some i) ∧
    (∀ t ∈ d.headers, 0 < t.start) ∧ Forest.findAt 0 d.outline = none := by
  intro d
  have hasc : d.HeadersAscend := by
    unfold HeadersAscend
    decide
  have hlength : 4 < byteLength d.text := by decide
  have hsome : ∃ t ∈ d.headers, t.start ≤ 4 := by decide
  have hbefore : ∀ t ∈ d.headers, 0 < t.start := by decide
  obtain ⟨i, t, row, -, -, -, hrow, -, hfind, hlineage, hend, -⟩ :=
    (outline_breadcrumbs.1 d hasc 4).2 hlength hsome
  exact ⟨hasc, hlength, hsome, ⟨i, row, hrow, hfind, hlineage, hend⟩, hbefore,
    ((outline_breadcrumbs.1 d hasc 0).1 (Or.inr hbefore)).1⟩

end Document

end DocOutline
