import DocOutline.Proofs.Extents
import DocOutline.Proofs.Parts

set_option autoImplicit false

/-! # The text of a section is a document of its own

The bytes of a section can be cut out of a document and read by themselves. What comes out is an
outline with a single root, which is the section with everything inside it, moved to the start of
the text (`Document.outline_extract`).

For this the section is followed through three steps. The headings of the part of the text are those
of the section and of the sections inside it (`Document.exists_part`). The roots of these headings
do not change if headings follow that are no deeper, except that the document ends earlier
(`Forest.ofHeadings_append`). And moving all headings moves all sections
(`Forest.ofHeadings_relocate`). -/

namespace DocOutline

open Text

/-! ## Moving sections -/

mutual
/-- A section with other offsets, which `first` gives for the bytes that sections start at and
    `last` for those that they end on. -/
def Section.relocate (first last : Nat → Nat) : Section → Section
  | ⟨name, level, start, stop, children⟩ =>
    ⟨name, level, first start, last stop, Forest.relocate first last children⟩

/-- A forest with other offsets. -/
def Forest.relocate (first last : Nat → Nat) : List Section → List Section
  | [] => []
  | s :: rest => s.relocate first last :: Forest.relocate first last rest
end

/-- A section `n` bytes further back, with everything inside it. -/
def Section.moveBack (n : Nat) (s : Section) : Section := s.relocate (· - n) (· - n)

section Relocate

variable (first last : Nat → Nat)

@[simp] theorem Section.relocate_level (s : Section) :
    (s.relocate first last).level = s.level := by
  cases s; rfl

@[simp] theorem Section.relocate_start (s : Section) :
    (s.relocate first last).start = first s.start := by
  cases s; rfl

theorem Forest.relocate_eq_map (f : Forest) :
    Forest.relocate first last f = f.map (Section.relocate first last) := by
  induction f with
  | nil => rfl
  | cons s f ih => rw [Forest.relocate, ih, List.map_cons]

/-- Putting a heading in front of a forest and moving both, if the end of the new section moves with
    the heading after it. -/
theorem Heading.nest_relocate (length : Nat) (h : Heading) (later : Forest)
    (hstop : Forest.stopBefore (first length)
        ((later.dropWhile fun s => decide (h.level < s.level)).map (Section.relocate first last))
      = last (Forest.stopBefore length (later.dropWhile fun s => decide (h.level < s.level)))) :
    (h.relocate first).nest (first length) (later.map (Section.relocate first last))
      = (h.nest length later).map (Section.relocate first last) := by
  have hdeeper : (fun s : Section => decide (h.level < s.level)) ∘ Section.relocate first last
      = fun s => decide (h.level < s.level) := by
    funext s
    rw [Function.comp_apply, Section.relocate_level]
  show (⟨h.name, h.level, first h.start,
      Forest.stopBefore (first length)
        ((later.map _).dropWhile fun s => decide (h.level < s.level)),
      (later.map _).takeWhile fun s => decide (h.level < s.level)⟩ : Section)
    :: (later.map _).dropWhile (fun s => decide (h.level < s.level)) = _
  rw [List.takeWhile_map, List.dropWhile_map, hdeeper, hstop, Heading.nest, List.map_cons,
    Section.relocate, Forest.relocate_eq_map]

end Relocate

/-- Moving headings on is undone by moving them back. -/
theorem Heading.eq_map_relocate {n : Nat} {headings moved : List Heading}
    (h : headings.map (Heading.shift n) = moved) :
    headings = moved.map (Heading.relocate (· - n)) := by
  have hundo : Heading.relocate (· - n) ∘ Heading.shift n = id := by
    funext k
    show (⟨k.level, k.start + n - n, k.name⟩ : Heading) = k
    rw [Nat.add_sub_cancel]
  rw [← h, List.map_map, hundo, List.map_id]

/-- Moving all headings moves all sections, if ends of sections move with the headings that can end
    one, and with the end of the document. -/
theorem Forest.ofHeadings_relocate (first last : Nat → Nat) (length : Nat) (headings : List Heading)
    (hlength : last (length - 1) = first length - 1)
    (hstarts : ∀ h ∈ headings.tail, last (h.start - 1) = first h.start - 1) :
    Forest.ofHeadings (first length) (headings.map (Heading.relocate first))
      = (Forest.ofHeadings length headings).map (Section.relocate first last) := by
  induction headings with
  | nil => rfl
  | cons h later ih =>
    rw [List.tail_cons] at hstarts
    have hroots := ih fun k hk => hstarts k (List.mem_of_mem_tail hk)
    show (h.relocate first).nest (first length)
      (Forest.ofHeadings (first length) (later.map (Heading.relocate first))) = _
    rw [hroots]
    refine Heading.nest_relocate first last length h _ ?_
    -- the section ends before the first root that is not deeper, which is one of the later headings
    rw [Forest.dropWhile_ofHeadings]
    have hsub : Heading.skipDeeper h.level later ⊆ later := List.dropWhile_subset _
    cases hskip : Heading.skipDeeper h.level later with
    | nil => exact hlength.symm
    | cons k rest =>
      rw [Forest.ofHeadings_cons]
      show (Section.relocate first last _).start - 1 = _
      rw [Section.relocate_start]
      exact (hstarts k (hsub (by rw [hskip]; exact List.mem_cons_self))).symm

/-- Moving back by differences that stop at 0 is always of this kind. -/
theorem Forest.ofHeadings_moveBack (n length : Nat) (headings : List Heading) :
    Forest.ofHeadings (length - n) (headings.map (Heading.relocate (· - n)))
      = (Forest.ofHeadings length headings).map (Section.moveBack n) :=
  Forest.ofHeadings_relocate (· - n) (· - n) length headings (Nat.sub_right_comm ..)
    fun _ _ => Nat.sub_right_comm ..

/-! ## Headings that end all sections before them -/

/-- Roots that begin with one that is not deeper stay beside a new heading, and end the section that
    it becomes if nothing else does. -/
theorem Heading.nest_append {length bound : Nat} {h : Heading} {back : Forest}
    (hback : ∀ s ∈ back.head?, s.level ≤ h.level)
    (hbound : Forest.stopBefore length back = bound - 1) (roots : Forest) :
    h.nest length (roots ++ back) = h.nest bound roots ++ back := by
  have hdeeper : ∀ s ∈ back.head?, decide (h.level < s.level) = false := by
    intro s hs
    have := hback s hs
    exact decide_eq_false (by omega)
  obtain ⟨htake, hdrop⟩ := span_append_of_head hdeeper roots
  have hstop : ∀ rest : Forest,
      Forest.stopBefore length (rest ++ back) = Forest.stopBefore bound rest := by
    intro rest
    cases rest with
    | nil => exact hbound
    | cons s rest => rfl
  unfold Heading.nest
  dsimp only
  rw [htake, hdrop, hstop, List.cons_append]

/-- If the headings before a heading are no shallower than it, they form roots of their own, as in a
    document that ends where this heading starts. -/
theorem Forest.ofHeadings_append (length : Nat) (front back : List Heading)
    (h : ∀ k ∈ front, ∀ b ∈ back.head?, b.level ≤ k.level) :
    Forest.ofHeadings length (front ++ back)
      = Forest.ofHeadings (Heading.firstStart length back) front
        ++ Forest.ofHeadings length back := by
  have hbound : Forest.stopBefore length (Forest.ofHeadings length back)
      = Heading.firstStart length back - 1 := by
    cases back with
    | nil => rfl
    | cons b back => rw [Forest.ofHeadings_cons]; rfl
  induction front with
  | nil => rfl
  | cons k front ih =>
    obtain ⟨hk, hfront⟩ := List.forall_mem_cons.1 h
    have hback : ∀ s ∈ (Forest.ofHeadings length back).head?, s.level ≤ k.level := by
      cases back with
      | nil => simp [Forest.ofHeadings]
      | cons b back => simpa [Forest.ofHeadings_cons] using hk
    show k.nest length (Forest.ofHeadings length (front ++ back)) = k.nest _ _ ++ _
    rw [ih hfront]
    exact Heading.nest_append hback hbound _

/-- The section of a heading is the only root in a document that ends where the section does. -/
theorem Heading.ofHeadings_eq_singleton (length : Nat) {h : Heading}
    {later inside : List Heading} (hsplit : later = inside ++ Heading.skipDeeper h.level later)
    (hinside : ∀ k ∈ inside, h.level < k.level)
    (hbeside : ∀ k, (Heading.skipDeeper h.level later).head? = some k → k.level ≤ h.level) :
    Forest.ofHeadings (Heading.firstStart length (Heading.skipDeeper h.level later)) (h :: inside)
      = [h.toSection length later] := by
  have hnone : ∀ k ∈ h :: inside, ∀ b ∈ (Heading.skipDeeper h.level later).head?,
      b.level ≤ k.level := by
    intro k hk b hb
    have hlevel := hbeside b hb
    rcases List.mem_cons.1 hk with rfl | hk
    · exact hlevel
    · have := hinside k hk
      omega
  have happend := Forest.ofHeadings_append length (h :: inside) _ hnone
  rw [List.cons_append, ← hsplit, Forest.ofHeadings_cons, ← List.singleton_append] at happend
  exact (List.append_cancel_right happend).symm

/-! ## The part of a text that a section covers -/

namespace Document

/-- The text from one of its headings up to another one, or to its end, has the headings in
    between. -/
theorem exists_part {rules : HeadingRules} {t : Text} {front inside back : List Heading}
    {h : Heading} (hheadings : (ofText rules t).headings = front ++ h :: (inside ++ back)) :
    ∃ before part after, t = before ++ (part ++ after) ∧ byteLength before = h.start ∧
      byteLength before + byteLength part = Heading.firstStart (byteLength t) back ∧
      (ofText rules part).headings.map (Heading.shift (byteLength before)) = h :: inside := by
  obtain ⟨before, rest, rfl, hbefore, -, hrest⟩ := exists_cut hheadings
  cases back with
  | nil =>
    rw [List.append_nil] at hrest
    exact ⟨before, rest, [], by rw [List.append_nil], hbefore, (byteLength_append ..).symm, hrest⟩
  | cons k back =>
    rw [← List.cons_append] at hrest
    obtain ⟨own, others, hown, hinside, hothers⟩ := List.map_eq_append_iff.1 hrest
    obtain ⟨k', others, rfl, rfl, -⟩ := List.map_eq_cons_iff.1 hothers
    obtain ⟨part, after, rfl, hpart, hheadings, -⟩ := exists_cut hown
    refine ⟨before, part, after, rfl, hbefore, ?_, by rw [hheadings, hinside]⟩
    show _ = k'.start + byteLength before
    rw [hpart, Nat.add_comm]

/-- **Extraction.** For every text, all rules and every section of its outline, at any depth: the
    section starts and ends between characters, and the text that it covers, read by itself, has an
    outline with a single root, which is the section with everything inside it, moved back to the
    start of the text. -/
theorem outline_extract (rules : HeadingRules) (text : Text) (row : Row)
    (hrow : row ∈ Forest.walk (ofText rules text).outline) :
    IsBoundary text row.node.start ∧ IsBoundary text (row.node.stop + 1) ∧
    ∃ part, slice? text row.node.start (row.node.stop + 1) = some part ∧
      (ofText rules part).outline = [row.node.moveBack row.node.start] := by
  obtain ⟨front, h, later, hheadings, (hnode : row.node = h.toSection (byteLength text) later)⟩ :=
    exists_toSection hrow
  obtain ⟨inside, hsplit, hinside, hbeside⟩ := Heading.skipDeeper_split h.level later
  have hroot := Heading.ofHeadings_eq_singleton (byteLength text) hsplit hinside hbeside
  have hstop := Heading.toSection_stop_eq (byteLength text) h later
  rw [hsplit] at hheadings
  obtain ⟨before, part, after, rfl, hbefore, hlength, hpart⟩ := exists_part hheadings
  have hne : part ≠ [] := by
    rintro rfl
    exact List.cons_ne_nil h inside hpart.symm
  have hpos := byteLength_pos hne
  rw [← hlength] at hroot hstop
  have hstart : row.node.start = byteLength before := by
    rw [hnode, Heading.toSection_start, hbefore]
  have hend : row.node.stop + 1 = byteLength before + byteLength part := by
    rw [hnode, hstop]
    omega
  rw [hstart, hend]
  refine ⟨⟨before, part ++ after, rfl, rfl⟩,
    ⟨before ++ part, after, (List.append_assoc ..).symm, byteLength_append before part⟩,
    part, slice?_append before part after, ?_⟩
  -- the headings of the part are those of the section, moved back
  rw [outline_ofText, Heading.eq_map_relocate hpart,
    ← Nat.add_sub_cancel_left (byteLength before) (byteLength part), Forest.ofHeadings_moveBack,
    hroot, hnode, List.map_singleton]

/-- A section inside another one, with a code block and a section of its own, and a heading after
    it. -/
theorem outline_extract_with_block :
    let text := ['=', ' ', 'A', '\n', '=', '=', ' ', 'é', '\n', '-', '-', '-', '-', '\n',
      '=', ' ', 'x', '\n', '-', '-', '-', '-', '\n', '=', '=', '=', ' ', 'D', '\n', '=', ' ', 'C']
    let inner : Section := ⟨['é'], 2, 4, 29, [⟨['D'], 3, 24, 29, []⟩]⟩
    ⟨1, inner⟩ ∈ Forest.walk (ofText {} text).outline ∧
    ∃ part, slice? text 4 30 = some part ∧
      (ofText {} part).outline = [⟨['é'], 2, 0, 25, [⟨['D'], 3, 20, 25, []⟩]⟩] := by
  intro text inner
  have hrow : ⟨1, inner⟩ ∈ Forest.walk (ofText {} text).outline := by
    rw [Forest.walk_eq_rows]
    exact List.mem_cons_of_mem _ List.mem_cons_self
  exact ⟨hrow, (outline_extract {} text ⟨1, inner⟩ hrow).2.2⟩

end Document

end DocOutline
