import DocOutline.Proofs.Scanning
import DocOutline.Proofs.Walk

set_option autoImplicit false

/-! # Nesting and extent of the sections of an outline

The pass that builds an outline says what is done, heading by heading. Here the outline is described
from the outside, by the levels of the headings in reading order alone:

* the walk of the outline meets the headings in their order, each one once, and the parent of a
  heading is the nearest earlier one that is shallower (`Document.outline_nesting`);
* a section ends before the next heading that is not deeper, or with the document
  (`Document.outline_extent`).

Both rest on one equation, `Forest.ofHeadings_cons`: in front of the later headings a heading
becomes a root whose children are the roots that are deeper, and the roots that stay beside it are
the outline of the headings from the first one that is not deeper on. Nothing is assumed of the
tokens: their offsets may be in any order, and levels may be any numbers. -/

namespace DocOutline

open Text

/-! ## One heading in front of the others -/

/-- The section that a heading becomes if the headings `later` follow it. -/
def Heading.toSection (length : Nat) (h : Heading) (later : List Heading) : Section :=
  let roots := Forest.ofHeadings length later
  let deeper := fun s : Section => decide (h.level < s.level)
  ⟨h.name, h.level, h.start, Forest.stopBefore length (roots.dropWhile deeper),
    roots.takeWhile deeper⟩

@[simp] theorem Heading.toSection_name (length : Nat) (h : Heading) (later : List Heading) :
    (h.toSection length later).name = h.name := rfl

@[simp] theorem Heading.toSection_level (length : Nat) (h : Heading) (later : List Heading) :
    (h.toSection length later).level = h.level := rfl

@[simp] theorem Heading.toSection_start (length : Nat) (h : Heading) (later : List Heading) :
    (h.toSection length later).start = h.start := rfl

/-- The headings from the first one on that is not deeper than `level`. -/
def Heading.skipDeeper (level : Nat) (headings : List Heading) : List Heading :=
  headings.dropWhile fun k => decide (level < k.level)

/-- Dropping while `p` first changes nothing if everything that satisfies `p` satisfies `q`. -/
theorem dropWhile_dropWhile_of_imp {α : Type} {p q : α → Bool} (hpq : ∀ a, p a = true → q a = true)
    (l : List α) : (l.dropWhile p).dropWhile q = l.dropWhile q := by
  induction l with
  | nil => rfl
  | cons a l ih =>
    by_cases hp : p a = true
    · rw [List.dropWhile_cons_of_pos hp, ih, List.dropWhile_cons_of_pos (hpq a hp)]
    · rw [List.dropWhile_cons_of_neg hp]

/-- Dropping the leading roots that are deeper than a level drops the leading headings that are. -/
theorem Forest.dropWhile_ofHeadings (length level : Nat) (headings : List Heading) :
    (Forest.ofHeadings length headings).dropWhile (fun s => decide (level < s.level))
      = Forest.ofHeadings length (Heading.skipDeeper level headings) := by
  induction headings with
  | nil => rfl
  | cons h later ih =>
    show (h.toSection length later :: (Forest.ofHeadings length later).dropWhile
      fun s => decide (h.level < s.level)).dropWhile _ = _
    rw [List.dropWhile_cons, Heading.toSection_level, Heading.skipDeeper, List.dropWhile_cons]
    by_cases hdeep : level < h.level
    · have himp : ∀ s : Section, decide (h.level < s.level) = true →
          decide (level < s.level) = true := by
        intro s hs
        have := of_decide_eq_true hs
        exact decide_eq_true (by omega)
      rw [if_pos (decide_eq_true hdeep), if_pos (decide_eq_true hdeep),
        dropWhile_dropWhile_of_imp himp, ih, Heading.skipDeeper]
    · have hstop : ¬ decide (level < h.level) = true := by simpa using hdeep
      rw [if_neg hstop, if_neg hstop]
      rfl

/-- A heading becomes a root, and beside it stand the roots of the headings from the first one on
    that is not deeper. -/
theorem Forest.ofHeadings_cons (length : Nat) (h : Heading) (later : List Heading) :
    Forest.ofHeadings length (h :: later)
      = h.toSection length later
        :: Forest.ofHeadings length (Heading.skipDeeper h.level later) := by
  rw [← Forest.dropWhile_ofHeadings]
  rfl

/-- The roots of the later headings are the children of the new root and the roots beside it. -/
theorem Heading.children_append (length : Nat) (h : Heading) (later : List Heading) :
    (h.toSection length later).children
        ++ Forest.ofHeadings length (Heading.skipDeeper h.level later)
      = Forest.ofHeadings length later := by
  rw [← Forest.dropWhile_ofHeadings]
  exact List.takeWhile_append_dropWhile

/-- There is one section for every heading. -/
theorem Forest.size_ofHeadings (length : Nat) (headings : List Heading) :
    Forest.size (Forest.ofHeadings length headings) = headings.length := by
  induction headings with
  | nil => rfl
  | cons h later ih =>
    have hsplit := congrArg Forest.size (Heading.children_append length h later)
    rw [Forest.size_append, ih] at hsplit
    rw [Forest.ofHeadings_cons, Forest.size, Section.size_eq, List.length_cons]
    omega

/-- As many headings stand inside a section as there are deeper ones right after its own. -/
theorem Heading.size_children (length : Nat) (h : Heading) (later : List Heading) :
    Forest.size (h.toSection length later).children + (Heading.skipDeeper h.level later).length
      = later.length := by
  have hsplit := congrArg Forest.size (Heading.children_append length h later)
  rwa [Forest.size_append, Forest.size_ofHeadings, Forest.size_ofHeadings] at hsplit

/-! ## The sections in reading order -/

theorem Forest.map_node_rows_ofHeadings_cons (length depth : Nat) (h : Heading)
    (later : List Heading) :
    (Forest.rows depth (Forest.ofHeadings length (h :: later))).map Row.node
      = h.toSection length later
        :: (Forest.rows depth (Forest.ofHeadings length later)).map Row.node := by
  rw [← Heading.children_append length h later, Forest.ofHeadings_cons, Forest.rows,
    Section.rows_eq, Forest.rows_append]
  simp only [List.map_append, List.map_cons, List.cons_append]
  rw [Forest.map_node_rows (depth + 1) depth]

/-- The section at a place in reading order is the one that the heading at this place becomes in
    front of those after it. -/
theorem Forest.node_rows_ofHeadings (length depth : Nat) (headings : List Heading) (i : Nat) :
    ((Forest.rows depth (Forest.ofHeadings length headings)).map Row.node)[i]?
      = headings[i]?.map fun h => h.toSection length (headings.drop (i + 1)) := by
  induction headings generalizing i with
  | nil => rfl
  | cons h later ih =>
    rw [Forest.map_node_rows_ofHeadings_cons]
    cases i with
    | zero => rfl
    | succ i => rw [List.getElem?_cons_succ, List.getElem?_cons_succ, ih, List.drop_succ_cons]

/-! ## Parents -/

/-- Among headings of these levels, the one at `p` is the nearest before the one at `i` that is
    shallower. -/
def NearestShallower (levels : List Nat) (p i : Nat) : Prop :=
  p < i ∧ ∃ a b, levels[p]? = some a ∧ levels[i]? = some b ∧ a < b ∧
    ∀ j c, p < j → j < i → levels[j]? = some c → b ≤ c

/-- Among headings of these levels, none before the one at `i` is shallower. -/
def NoneShallower (levels : List Nat) (i : Nat) : Prop :=
  ∀ j a b, j < i → levels[j]? = some a → levels[i]? = some b → b ≤ a

/-- What the number of its parent, or the lack of one, says about the heading at `i`. -/
def IsParent (levels : List Nat) (i : Nat) : Option Nat → Prop
  | none => NoneShallower levels i
  | some p => NearestShallower levels p i

theorem NearestShallower.cons {levels : List Nat} {p i : Nat} (h : NearestShallower levels p i)
    (level : Nat) : NearestShallower (level :: levels) (p + 1) (i + 1) := by
  obtain ⟨hpi, a, b, ha, hb, hab, hbetween⟩ := h
  refine ⟨Nat.succ_lt_succ hpi, a, b, ha, hb, hab, fun j c hpj hji hc => ?_⟩
  cases j with
  | zero => omega
  | succ j => exact hbetween j c (by omega) (by omega) hc

theorem NoneShallower.cons_inside {levels : List Nat} {i b level : Nat}
    (h : NoneShallower levels i) (hb : levels[i]? = some b) (hlevel : level < b) :
    NearestShallower (level :: levels) 0 (i + 1) := by
  refine ⟨Nat.succ_pos i, level, b, rfl, hb, hlevel, fun j c hj hji hc => ?_⟩
  cases j with
  | zero => omega
  | succ j => exact h j c b (by omega) hc hb

theorem NoneShallower.cons_beside {levels : List Nat} {i b level : Nat}
    (h : NoneShallower levels i) (hb : levels[i]? = some b) (hlevel : b ≤ level) :
    NoneShallower (level :: levels) (i + 1) := by
  intro j a c hj ha hc
  rw [List.getElem?_cons_succ, hb, Option.some.injEq] at hc
  subst hc
  cases j with
  | zero =>
    rw [List.getElem?_cons_zero, Option.some.injEq] at ha
    omega
  | succ j => exact h j a b (by omega) ha hb

/-- The parent of a heading after one more heading has come in front of the others, which it stands
    inside or not. -/
def reparent (inside : Bool) : Option Nat → Option Nat
  | none => if inside then some 0 else none
  | some p => some (p + 1)

/-- The leading headings that are deeper than a level, and the rest. -/
theorem Heading.skipDeeper_split (level : Nat) (headings : List Heading) :
    ∃ front, headings = front ++ Heading.skipDeeper level headings ∧
      (∀ k ∈ front, level < k.level) ∧
      ∀ k, (Heading.skipDeeper level headings).head? = some k → k.level ≤ level := by
  induction headings with
  | nil => exact ⟨[], rfl, by simp, by simp [Heading.skipDeeper]⟩
  | cons h later ih =>
    obtain ⟨front, hsplit, hfront, hhead⟩ := ih
    rw [Heading.skipDeeper, List.dropWhile_cons]
    by_cases hdeep : level < h.level
    · rw [if_pos (decide_eq_true hdeep)]
      refine ⟨h :: front, congrArg (h :: ·) hsplit, ?_, hhead⟩
      intro k hk
      rcases List.mem_cons.1 hk with rfl | hk
      · exact hdeep
      · exact hfront k hk
    · rw [if_neg (by simpa using hdeep)]
      refine ⟨[], rfl, by simp, ?_⟩
      intro k hk
      rw [List.head?_cons, Option.some.injEq] at hk
      subst hk
      omega

/-- How a new heading in front changes the parents: those that had none and now stand inside the
    new section become its children, and all numbers move up by one. -/
theorem Forest.parents_ofHeadings_cons (length : Nat) (h : Heading) (later : List Heading)
    (i : Nat) :
    (Forest.parents none 0 (Forest.ofHeadings length (h :: later)))[i + 1]?
      = (Forest.parents none 0 (Forest.ofHeadings length later))[i]?.map
          (reparent (decide (i < Forest.size (h.toSection length later).children))) := by
  rw [← Heading.children_append length h later, Forest.parents_append, Forest.ofHeadings_cons,
    Forest.parents, Section.parents_eq, List.cons_append, List.getElem?_cons_succ, Section.size_eq]
  generalize (h.toSection length later).children = kids
  generalize Forest.ofHeadings length (Heading.skipDeeper h.level later) = beside
  have hkids := Forest.parents_map (reparent true) 1 (fun _ => rfl) none 0 kids
  have hbeside := Forest.parents_map (reparent false) 1 (fun _ => rfl) none
    (0 + Forest.size kids) beside
  have hlen := Forest.length_parents none 0 kids
  -- both sides list the children first and then the roots beside them
  by_cases hi : i < Forest.size kids
  · rw [List.getElem?_append_left (by rw [Forest.length_parents]; exact hi),
      List.getElem?_append_left (by rw [hlen]; exact hi), decide_eq_true hi, ← List.getElem?_map,
      ← hkids]
    rfl
  · rw [List.getElem?_append_right (by rw [Forest.length_parents]; omega),
      List.getElem?_append_right (by rw [hlen]; omega), decide_eq_false hi, ← List.getElem?_map,
      ← hbeside, Forest.length_parents, hlen]
    rfl

/-- Whether a later heading without a parent comes to stand inside a new section is decided by its
    level. -/
theorem Heading.lt_size_children_iff (length : Nat) (h : Heading) (later : List Heading) (i b : Nat)
    (hb : (later.map Heading.level)[i]? = some b)
    (hnone : NoneShallower (later.map Heading.level) i) :
    i < Forest.size (h.toSection length later).children ↔ h.level < b := by
  obtain ⟨front, hsplit, hfront, hhead⟩ := Heading.skipDeeper_split h.level later
  have hsize := Heading.size_children length h later
  have hlen := congrArg List.length hsplit
  rw [List.length_append] at hlen
  have hkids : Forest.size (h.toSection length later).children = front.length := by omega
  have hi := (List.getElem?_eq_some_iff.1 hb).1
  rw [List.length_map] at hi
  rw [hkids]
  rw [hsplit] at hb hnone
  constructor
  · intro hlt
    rw [List.map_append, List.getElem?_append_left (by simpa using hlt), List.getElem?_map,
      Option.map_eq_some_iff] at hb
    obtain ⟨k, hk, rfl⟩ := hb
    exact hfront k (List.mem_of_getElem? hk)
  · intro hlevel
    -- otherwise the first heading that is not deeper stands at or before `i`, and is no deeper
    -- than the one at `i`
    by_cases hlt : i < front.length
    · exact hlt
    · exfalso
      cases hskip : Heading.skipDeeper h.level later with
      | nil =>
        rw [hskip, List.length_nil] at hlen
        omega
      | cons k rest =>
        have hk := hhead k (by rw [hskip, List.head?_cons])
        have hkat : ((front ++ Heading.skipDeeper h.level later).map Heading.level)[front.length]?
            = some k.level := by
          rw [hskip, List.map_append, List.getElem?_append_right (by simp)]
          simp
        rcases Nat.lt_or_eq_of_le (Nat.not_lt.1 hlt) with hbefore | rfl
        · have := hnone front.length k.level b hbefore hkat hb
          omega
        · rw [hkat, Option.some.injEq] at hb
          omega

/-- The parent of a heading is the nearest earlier one that is shallower. -/
theorem Forest.isParent_ofHeadings (length : Nat) (headings : List Heading) (i : Nat)
    (o : Option Nat)
    (h : (Forest.parents none 0 (Forest.ofHeadings length headings))[i]? = some o) :
    IsParent (headings.map Heading.level) i o := by
  induction headings generalizing i o with
  | nil => simp [Forest.ofHeadings, Forest.parents] at h
  | cons first later ih =>
    cases i with
    | zero =>
      rw [Forest.ofHeadings_cons, Forest.parents, Section.parents_eq, List.cons_append,
        List.getElem?_cons_zero, Option.some.injEq] at h
      subst h
      intro j a b hj
      omega
    | succ i =>
      rw [Forest.parents_ofHeadings_cons, Option.map_eq_some_iff] at h
      obtain ⟨o', ho', rfl⟩ := h
      have hparent := ih i o' ho'
      cases o' with
      | some p => exact NearestShallower.cons hparent first.level
      | none =>
        have hi := (List.getElem?_eq_some_iff.1 ho').1
        rw [Forest.length_parents, Forest.size_ofHeadings] at hi
        obtain ⟨b, hb⟩ : ∃ b, (later.map Heading.level)[i]? = some b :=
          ⟨_, List.getElem?_eq_getElem (by simpa using hi)⟩
        have hinside := Heading.lt_size_children_iff length first later i b hb hparent
        by_cases hlevel : first.level < b
        · rw [decide_eq_true (hinside.2 hlevel)]
          exact NoneShallower.cons_inside hparent hb hlevel
        · rw [decide_eq_false (mt hinside.1 hlevel)]
          exact NoneShallower.cons_beside hparent hb (by omega)

/-- A section either is a root, and then no earlier heading is shallower, or it is a child of the
    nearest earlier heading that is. -/
theorem Forest.parent_cases (length : Nat) (headings : List Heading) {i : Nat} {row : Row}
    (hrow : (Forest.rows 0 (Forest.ofHeadings length headings))[i]? = some row) :
    let parents := Forest.parents none 0 (Forest.ofHeadings length headings)
    (NoneShallower (headings.map Heading.level) i ∧ parents[i]? = some none ∧ row.depth = 0) ∨
      ∃ p, NearestShallower (headings.map Heading.level) p i ∧ parents[i]? = some (some p) ∧
        ChildRow (Forest.rows 0 (Forest.ofHeadings length headings)) p i := by
  intro parents
  have hi : i < parents.length := by
    rw [Forest.length_parents, ← Forest.length_rows 0]
    exact (List.getElem?_eq_some_iff.1 hrow).1
  have hparent : parents[i]? = some parents[i] := List.getElem?_eq_getElem hi
  have hlevels := Forest.isParent_ofHeadings length headings i _ hparent
  rcases Forest.parents_spec 0 none 0 _ i _ hparent with
    ⟨hnone, root, -, hroot⟩ | ⟨p, hsome, -, hchild⟩
  · rw [hnone] at hlevels hparent
    rw [hrow, Option.some.injEq] at hroot
    exact Or.inl ⟨hlevels, hparent, by rw [hroot]⟩
  · rw [Nat.zero_add] at hsome
    rw [hsome] at hlevels hparent
    exact Or.inr ⟨p, hlevels, hparent, hchild⟩

/-! ## Extents -/

/-- Among headings of these levels, the one at `k` is the first after the one at `i` that is not
    deeper. -/
def NextNotDeeper (levels : List Nat) (i k : Nat) : Prop :=
  i < k ∧ ∃ a b, levels[i]? = some a ∧ levels[k]? = some b ∧ b ≤ a ∧
    ∀ j c, i < j → j < k → levels[j]? = some c → a < c

/-- Among headings of these levels, all that come after the one at `i` are deeper. -/
def AllDeeper (levels : List Nat) (i : Nat) : Prop :=
  ∀ k a b, i < k → levels[i]? = some a → levels[k]? = some b → a < b

/-- A section ends before the heading that ends it, or with the document. -/
theorem Heading.toSection_stop (length : Nat) (h : Heading) (later : List Heading) :
    (h.toSection length later).stop
      = match Heading.skipDeeper h.level later with
        | [] => length - 1
        | k :: _ => k.start - 1 := by
  show Forest.stopBefore length (List.dropWhile _ _) = _
  rw [Forest.dropWhile_ofHeadings]
  cases Heading.skipDeeper h.level later with
  | nil => rfl
  | cons k rest => rw [Forest.ofHeadings_cons]; rfl

/-- Either a heading is followed by a first one that is not deeper, or by deeper ones only. -/
theorem Heading.skipDeeper_drop_cases {headings : List Heading} {i : Nat} {h : Heading}
    (hi : headings[i]? = some h) :
    (∃ k next rest, headings[k]? = some next ∧
      NextNotDeeper (headings.map Heading.level) i k ∧
      Heading.skipDeeper h.level (headings.drop (i + 1)) = next :: rest) ∨
    (AllDeeper (headings.map Heading.level) i ∧
      Heading.skipDeeper h.level (headings.drop (i + 1)) = []) := by
  obtain ⟨front, hsplit, hfront, hhead⟩ := Heading.skipDeeper_split h.level (headings.drop (i + 1))
  have hlevel : (headings.map Heading.level)[i]? = some h.level := by
    rw [List.getElem?_map, hi, Option.map_some]
  -- a heading after `i` is found again in what follows `i`
  have hafter : ∀ j c, i < j → (headings.map Heading.level)[j]? = some c →
      ∃ x, (headings.drop (i + 1))[j - (i + 1)]? = some x ∧ x.level = c := by
    intro j c hij hc
    rw [List.getElem?_map, Option.map_eq_some_iff] at hc
    rwa [List.getElem?_drop, Nat.add_sub_cancel' hij]
  have hdeep : ∀ j c, i < j → j < i + 1 + front.length →
      (headings.map Heading.level)[j]? = some c → h.level < c := by
    intro j c hij hj hc
    obtain ⟨x, hx, rfl⟩ := hafter j c hij hc
    rw [hsplit, List.getElem?_append_left (by omega)] at hx
    exact hfront x (List.mem_of_getElem? hx)
  cases hskip : Heading.skipDeeper h.level (headings.drop (i + 1)) with
  | cons next rest =>
    refine Or.inl ⟨i + 1 + front.length, next, rest, ?_, ?_, rfl⟩
    · rw [← List.getElem?_drop, hsplit, hskip, List.getElem?_append_right (by omega)]
      simp
    · refine ⟨by omega, h.level, next.level, hlevel, ?_, hhead next (by rw [hskip]; rfl), hdeep⟩
      rw [List.getElem?_map, ← List.getElem?_drop, hsplit, hskip,
        List.getElem?_append_right (by omega)]
      simp
  | nil =>
    refine Or.inr ⟨fun k a b hik ha hb => ?_, rfl⟩
    rw [hlevel, Option.some.injEq] at ha
    subst ha
    obtain ⟨x, hx, -⟩ := hafter k b hik hb
    have hlt := (List.getElem?_eq_some_iff.1 hx).1
    rw [hsplit, hskip, List.append_nil] at hlt
    exact hdeep k b hik (by omega) hb

/-- Every root ends before the one after it, and the last one with the document. -/
theorem Forest.stop_of_ofHeadings_eq_append (length : Nat) (headings : List Heading)
    (before after : Forest) (s : Section)
    (h : Forest.ofHeadings length headings = before ++ s :: after) :
    s.stop = Forest.stopBefore length after := by
  induction headings generalizing before with
  | nil => simp [Forest.ofHeadings] at h
  | cons first later ih =>
    rw [Forest.ofHeadings_cons] at h
    cases before with
    | nil =>
      obtain ⟨rfl, rfl⟩ := List.cons.inj h
      rw [← Forest.dropWhile_ofHeadings]
      rfl
    | cons root before =>
      -- the roots beside the first one are the last roots of the later headings
      rw [List.cons_append] at h
      obtain ⟨-, hrest⟩ := List.cons.inj h
      refine ih ((first.toSection length later).children ++ before) ?_
      rw [← Heading.children_append length first later, hrest, List.append_assoc]

/-- The last child of a section ends where the section does. -/
theorem Heading.toSection_lastChild_stop (length : Nat) (h : Heading) (later : List Heading)
    (child : Section) (hlast : (h.toSection length later).children.getLast? = some child) :
    child.stop = (h.toSection length later).stop := by
  obtain ⟨before, hchildren⟩ := List.getLast?_eq_some_iff.1 hlast
  have hroots := Heading.children_append length h later
  rw [hchildren, List.append_assoc, List.singleton_append] at hroots
  rw [Forest.stop_of_ofHeadings_eq_append length later before _ child hroots.symm,
    ← Forest.dropWhile_ofHeadings]
  rfl

/-! ## The outline of a document -/

namespace Document

/-- The tokens that are headings, in the order of the tokens. -/
def headers (d : Document) : List Token := d.tokens.filter fun t => t.kind.isHeader

/-- The levels of the headings, in the order of the tokens. -/
def levels (d : Document) : List Nat := d.tokens.filterMap fun t => t.kind.level?

theorem levels_eq_map_headings (d : Document) : d.levels = d.headings.map Heading.level := by
  rw [levels, headings, List.map_filterMap]
  congr 1
  funext t
  rw [Token.heading?, Option.map_map]
  cases t.kind.level? <;> rfl

/-- The headings come from the header tokens, one from each. -/
theorem getElem?_headings (d : Document) (i : Nat) :
    d.headings[i]? = d.headers[i]?.bind (Token.heading? d.text) := by
  obtain ⟨text, tokens⟩ := d
  show (tokens.filterMap (Token.heading? text))[i]?
    = (tokens.filter fun t => t.kind.isHeader)[i]?.bind (Token.heading? text)
  induction tokens generalizing i with
  | nil => rfl
  | cons t rest ih =>
    cases hlevel : t.kind.level? with
    | none =>
      rw [List.filterMap_cons_none (by rw [Token.heading?, hlevel]; rfl),
        List.filter_cons_of_neg (by simp [TokenKind.isHeader, hlevel]), ih]
    | some level =>
      rw [List.filterMap_cons_some (by rw [Token.heading?, hlevel]; rfl),
        List.filter_cons_of_pos (by simp [TokenKind.isHeader, hlevel])]
      cases i with
      | zero => simp [Token.heading?, hlevel]
      | succ i => rw [List.getElem?_cons_succ, List.getElem?_cons_succ, ih]

/-- The heading of a header token. -/
theorem exists_heading {d : Document} {i : Nat} {t : Token} (ht : d.headers[i]? = some t) :
    ∃ level, t.kind = .header level ∧
      d.headings[i]? = some ⟨level, t.start, title (t.text d.text)⟩ := by
  have hheader := (List.mem_filter.1 (List.mem_of_getElem? ht)).2
  cases hkind : t.kind with
  | header level =>
    refine ⟨level, rfl, ?_⟩
    rw [getElem?_headings, ht, Option.bind_some, Token.heading?, hkind]
    rfl
  | codeBlock => rw [hkind] at hheader; exact absurd hheader (by decide)
  | other => rw [hkind] at hheader; exact absurd hheader (by decide)

theorem length_headings (d : Document) : d.headings.length = d.headers.length := by
  rw [headings, headers, ← List.countP_eq_length_filter, List.length_filterMap_eq_countP]
  congr 1
  funext t
  simp [Token.heading?, TokenKind.isHeader]

theorem headings_of_headers (d : Document) : headings ⟨d.text, d.headers⟩ = d.headings := by
  rw [headings, headings, headers, List.filterMap_filter]
  congr 1
  funext t
  cases hkind : t.kind <;> simp [Token.heading?, TokenKind.isHeader, TokenKind.level?, hkind]

/-- The row of a header token in the walk of the outline. -/
theorem exists_row {d : Document} {i : Nat} {t : Token} (ht : d.headers[i]? = some t) :
    ∃ level row, t.kind = .header level ∧ (Forest.walk d.outline)[i]? = some row ∧
      d.headings[i]? = some ⟨level, t.start, title (t.text d.text)⟩ ∧
      row.node = Heading.toSection (byteLength d.text) ⟨level, t.start, title (t.text d.text)⟩
        (d.headings.drop (i + 1)) := by
  obtain ⟨level, hkind, hheading⟩ := exists_heading ht
  have hnode := Forest.node_rows_ofHeadings (byteLength d.text) 0 d.headings i
  rw [hheading, Option.map_some, List.getElem?_map, Option.map_eq_some_iff] at hnode
  obtain ⟨row, hrow, hnode⟩ := hnode
  exact ⟨level, row, hkind, by rw [outline_eq, Forest.walk_eq_rows]; exact hrow, hheading, hnode⟩

/-- **Nesting.** For every document, whatever its tokens are: the walk of the outline is the walks
    of its roots one after the other and has one row for each header token, in their order, with
    the token's title, level and start. A section either is a root, and then no earlier heading is
    shallower, or its parent is the nearest earlier heading that is. Tokens that are no headings
    change nothing. -/
theorem outline_nesting (d : Document) :
    let rows := Forest.walk d.outline
    let parents := Forest.parents none 0 d.outline
    (rows = d.outline.flatMap fun root => Forest.walk [root]) ∧
    rows.length = d.headers.length ∧ parents.length = d.headers.length ∧
    Forest.count d.outline = d.headers.length ∧
    outline ⟨d.text, d.headers⟩ = d.outline ∧
    ∀ i t, d.headers[i]? = some t → ∃ level row, t.kind = .header level ∧
      d.levels[i]? = some level ∧ rows[i]? = some row ∧ row.node.name = title (t.text d.text) ∧
      row.node.level = level ∧ row.node.start = t.start ∧
      ((NoneShallower d.levels i ∧ parents[i]? = some none ∧ row.depth = 0) ∨
        ∃ p, NearestShallower d.levels p i ∧ parents[i]? = some (some p) ∧ ChildRow rows p i) := by
  intro rows parents
  have hsize : Forest.size d.outline = d.headers.length := by
    rw [outline_eq, Forest.size_ofHeadings, length_headings]
  have hrows : rows = Forest.rows 0 d.outline := Forest.walk_eq_rows d.outline
  refine ⟨Forest.walk_eq_flatMap_walk d.outline, ?_, ?_, ?_, ?_, ?_⟩
  · rw [hrows, Forest.length_rows, hsize]
  · rw [Forest.length_parents, hsize]
  · rw [Forest.count_eq_size, hsize]
  · rw [outline_eq, headings_of_headers, outline_eq]
  · intro i t ht
    obtain ⟨level, row, hkind, hrow, hheading, hnode⟩ := exists_row ht
    have hlevel : d.levels[i]? = some level := by
      rw [levels_eq_map_headings, List.getElem?_map, hheading, Option.map_some]
    refine ⟨level, row, hkind, hlevel, hrow, by rw [hnode, Heading.toSection_name],
      by rw [hnode, Heading.toSection_level], by rw [hnode, Heading.toSection_start], ?_⟩
    have hcases := Forest.parent_cases (byteLength d.text) d.headings
      (by rw [← outline_eq, ← hrows]; exact hrow)
    simp only [← outline_eq, ← levels_eq_map_headings] at hcases
    rwa [← hrows] at hcases

/-- The third heading below comes after a deeper one, and the first is its parent. -/
theorem outline_nesting_second_level :
    let d : Document := ⟨['=', ' ', 'A', '\n', '=', '=', '=', ' ', 'B', '\n', '=', '=', ' ', 'C'],
      [⟨.header 1, 0, 3⟩, ⟨.other, 3, 4⟩, ⟨.header 3, 4, 9⟩, ⟨.other, 9, 10⟩, ⟨.header 2, 10, 14⟩]⟩
    d.headers[2]? = some ⟨.header 2, 10, 14⟩ ∧ d.levels[2]? = some 2 ∧
    ∃ row, (Forest.walk d.outline)[2]? = some row ∧ row.node.name = ['C'] ∧
      row.node.level = 2 ∧ row.node.start = 10 ∧ NearestShallower d.levels 0 2 ∧
      (Forest.parents none 0 d.outline)[2]? = some (some 0) ∧
      ChildRow (Forest.walk d.outline) 0 2 := by
  intro d
  have hthird : d.headers[2]? = some ⟨.header 2, 10, 14⟩ := by decide
  have hfirst : (Forest.parents none 0 d.outline)[2]? = some (some 0) := rfl
  obtain ⟨level, row, hkind, hlevel, hrow, hname, hlevels, hstart, hparent⟩ :=
    (outline_nesting d).2.2.2.2.2 2 _ hthird
  obtain rfl := TokenKind.header.inj hkind
  rw [hfirst] at hparent
  rcases hparent with ⟨-, hroot, -⟩ | ⟨p, hnearest, hp, hchild⟩
  · simp at hroot
  · obtain rfl : 0 = p := by simpa using hp
    exact ⟨hthird, hlevel, row, hrow, hname.trans (by decide), hlevels, hstart, hnearest, hfirst,
      hchild⟩

/-- **Extent.** For every document, whatever its tokens are: the section of a header token ends one
    byte before the first later heading that is not deeper, or on the last byte of the document if
    all later ones are deeper. The last child of a section ends where the section does. -/
theorem outline_extent (d : Document) :
    (∀ i t, d.headers[i]? = some t → ∃ level row, t.kind = .header level ∧
      (Forest.walk d.outline)[i]? = some row ∧ row.node.level = level ∧ row.node.start = t.start ∧
      ((∃ k next, d.headers[k]? = some next ∧ NextNotDeeper d.levels i k ∧
          row.node.stop = next.start - 1) ∨
        (AllDeeper d.levels i ∧ row.node.stop = byteLength d.text - 1))) ∧
    ∀ row ∈ Forest.walk d.outline, ∀ child, row.node.children.getLast? = some child →
      child.stop = row.node.stop := by
  constructor
  · intro i t ht
    obtain ⟨level, row, hkind, hrow, hheading, hnode⟩ := exists_row ht
    refine ⟨level, row, hkind, hrow, by rw [hnode, Heading.toSection_level],
      by rw [hnode, Heading.toSection_start], ?_⟩
    rw [levels_eq_map_headings]
    have hstop := Heading.toSection_stop (byteLength d.text)
      ⟨level, t.start, title (t.text d.text)⟩ (d.headings.drop (i + 1))
    rw [← hnode] at hstop
    rcases Heading.skipDeeper_drop_cases hheading with
      ⟨k, next, rest, hk, hnext, hskip⟩ | ⟨hall, hskip⟩
    · rw [hskip] at hstop
      rw [getElem?_headings, Option.bind_eq_some_iff] at hk
      obtain ⟨u, hu, hnextof⟩ := hk
      rw [Token.heading?, Option.map_eq_some_iff] at hnextof
      obtain ⟨_, -, rfl⟩ := hnextof
      exact Or.inl ⟨k, u, hu, hnext, hstop⟩
    · rw [hskip] at hstop
      exact Or.inr ⟨hall, hstop⟩
  · intro row hmem child hlast
    obtain ⟨i, hi⟩ := List.getElem?_of_mem hmem
    have hnode := Forest.node_rows_ofHeadings (byteLength d.text) 0 d.headings i
    rw [← outline_eq, ← Forest.walk_eq_rows, List.getElem?_map, hi, Option.map_some, eq_comm,
      Option.map_eq_some_iff] at hnode
    obtain ⟨h, -, hnode⟩ := hnode
    rw [← hnode] at hlast ⊢
    exact Heading.toSection_lastChild_stop _ h _ child hlast

/-- Offsets that run backwards, and a last heading that starts at 0: it ends the first section, whose
    extent meets it. -/
theorem outline_extent_backwards :
    let d : Document := ⟨['x'], [⟨.header 1, 9, 2⟩, ⟨.header 2, 5, 7⟩, ⟨.header 0, 0, 0⟩]⟩
    d.headers[0]? = some ⟨.header 1, 9, 2⟩ ∧
    ∃ row, (Forest.walk d.outline)[0]? = some row ∧ row.node.level = 1 ∧ row.node.start = 9 ∧
      d.headers[2]? = some ⟨.header 0, 0, 0⟩ ∧ NextNotDeeper d.levels 0 2 ∧
      row.node.stop = 0 := by
  intro d
  have hfirst : d.headers[0]? = some ⟨.header 1, 9, 2⟩ := by decide
  have hlast : d.headers[2]? = some ⟨.header 0, 0, 0⟩ := by decide
  have hlevels : d.levels = [1, 2, 0] := by decide
  obtain ⟨level, row, hkind, hrow, hlevel, hstart, hstop⟩ := (outline_extent d).1 0 _ hfirst
  obtain rfl := TokenKind.header.inj hkind
  rcases hstop with ⟨k, next, hk, hnext, hstop⟩ | ⟨hall, -⟩
  · -- the second heading is deeper, so it is the third one that ends the section
    obtain rfl : k = 2 := by
      obtain ⟨hpos, a, b, ha, hb, hle, -⟩ := hnext
      have hlt := (List.getElem?_eq_some_iff.1 hk).1
      rw [hlevels] at ha hb
      match k, hpos, hlt with
      | 1, _, _ => simp at ha hb; omega
      | 2, _, _ => rfl
    rw [hlast] at hk
    obtain rfl := Option.some.inj hk
    exact ⟨hfirst, row, hrow, hlevel, hstart, hlast, hnext, hstop⟩
  · have hdeeper := hall 2 1 0 (by decide) (by rw [hlevels]; rfl) (by rw [hlevels]; rfl)
    exact absurd hdeeper (by decide)

end Document

end DocOutline
