import DocOutline.Proofs.Pruning
import DocOutline.Proofs.Queries

set_option autoImplicit false

/-! # Searching any forest

The two queries by offset are compared with each other, and with the same queries in the pruned
forest. Nothing is assumed of the forest: sections that stand next to each other may share bytes, and
a section may reach beyond the one that holds it, so it matters that both queries take the same
section at every level.

`Forest.Search` says which sections a search has to pass, without saying how they are found: at each
level the first one that holds the offset, as long as there is one. The sections that were shown to
be passed by both queries are of this kind (`Forest.search_visited`). Pruning cuts the way short at
the depth, and takes away what the sections on it hold from the depth on (`Forest.visited_keep`), so
both queries in the pruned forest are answered by the way in the full one
(`Forest.queries_agree`). -/

namespace DocOutline

/-! ## The way of a search -/

/-- The sections that a search for an offset passes, from the roots at the given depth down: the
    first section that holds the offset, then the first of its children that does, until there is
    none. -/
inductive Forest.Search (offset : Nat) : Nat → Forest → List Row → Prop
  | done {depth : Nat} {f : Forest} (hnone : ∀ s ∈ f, s.contains offset = false) :
      Search offset depth f []
  | step {depth : Nat} {before after : Forest} {s : Section} {way : List Row}
      (hbefore : ∀ t ∈ before, t.contains offset = false) (hin : s.contains offset = true)
      (h : Search offset (depth + 1) s.children way) :
      Search offset depth (before ++ s :: after) (⟨depth, s⟩ :: way)

namespace Forest.Search

variable {offset depth : Nat} {f : Forest} {way : List Row}

/-- A section in front that does not hold the offset is not passed. -/
theorem cons_of_not_contains (h : Search offset depth f way) {s : Section}
    (hs : s.contains offset = false) : Search offset depth (s :: f) way := by
  cases h with
  | done hnone => exact .done (List.forall_mem_cons.2 ⟨hs, hnone⟩)
  | @step _ before after t way hbefore hin h =>
    have hfront : ∀ u ∈ s :: before, u.contains offset = false :=
      List.forall_mem_cons.2 ⟨hs, hbefore⟩
    rw [← List.cons_append]
    exact .step hfront hin h

theorem not_contains (h : Search offset depth f []) : ∀ s ∈ f, s.contains offset = false := by
  cases h with
  | done hnone => exact hnone

theorem depth_eq (h : Search offset depth f way) {i : Nat} {row : Row}
    (hrow : way[i]? = some row) : row.depth = depth + i := by
  induction h generalizing i with
  | done => simp at hrow
  | step _ _ _ ih =>
    cases i with
    | zero =>
      simp only [List.getElem?_cons_zero, Option.some.injEq] at hrow
      rw [← hrow, Nat.add_zero]
    | succ i =>
      rw [ih hrow]
      omega

theorem mem_rows (h : Search offset depth f way) : ∀ row ∈ way, row ∈ Forest.rows depth f := by
  induction h with
  | done => simp
  | @step depth before after s way _ _ _ ih =>
    intro row hrow
    obtain ⟨hroot, hinside⟩ := @Forest.mem_rows_of_mem depth (before ++ s :: after) s (by simp)
    rcases List.mem_cons.1 hrow with rfl | hrow
    · exact hroot
    · exact hinside row (ih row hrow)

/-- The search ends at a section of which no child holds the offset. -/
theorem getLast_children (h : Search offset depth f way) :
    ∀ row ∈ way.getLast?, ∀ child ∈ row.node.children, child.contains offset = false := by
  induction h with
  | done => simp
  | @step depth before after s way _ _ hrest ih =>
    intro row hrow
    cases way with
    | nil =>
      simp only [List.getLast?_singleton, Option.mem_some_iff] at hrow
      rw [← hrow]
      exact hrest.not_contains
    | cons next way =>
      rw [List.getLast?_cons_cons] at hrow
      exact ih row hrow

end Forest.Search

/-- The sections that the queries pass are those of a search. -/
theorem Forest.search_visited (offset : Nat) :
    ∀ (depth : Nat) (f : List Section),
      Forest.Search offset depth f (Forest.visited offset depth f)
  | depth, [] => .done (by simp)
  | depth, ⟨name, level, start, stop, children⟩ :: rest => by
    rw [Forest.visited]
    split
    · rename_i hin
      rw [Section.visited]
      have hinside := Forest.search_visited offset (depth + 1) children
      exact @Forest.Search.step offset depth [] rest _ _ (by simp) hin hinside
    · rename_i hout
      exact (Forest.search_visited offset depth rest).cons_of_not_contains (by simpa using hout)

/-! ## The way in a pruned forest -/

/-- In the first levels of a forest a search passes as many of the sections that it passes in all of
    it, each without what it holds further down. -/
theorem Forest.visited_keep (offset levels depth : Nat) (f : Forest) :
    Forest.visited offset depth (Forest.keep levels f)
      = ((Forest.visited offset depth f).take levels).map (Row.cut (depth + levels)) := by
  induction levels generalizing depth f with
  | zero => simp [Forest.keep, Forest.visited]
  | succ levels ih =>
    induction f with
    | nil => rfl
    | cons s rest ihrest =>
      have hinside := ih (depth + 1) s.children
      rw [show depth + 1 + levels = depth + (levels + 1) by omega] at hinside
      rw [Forest.keep] at ihrest ⊢
      rw [List.map_cons, Forest.visited, Forest.visited]
      -- the copy of a section holds the same offsets as the section
      show (if s.contains offset = true then _ else _) = _
      split
      · rw [Section.visited_eq, Section.visited_eq, List.take_succ_cons, List.map_cons, Row.cut_root,
          hinside]
      · exact ihrest

theorem Forest.visited_prune {maxDepth : Nat} (h : 0 < maxDepth) (offset : Nat) (f : Forest) :
    Forest.visited offset 0 (f.prune maxDepth)
      = ((Forest.visited offset 0 f).take maxDepth).map (Row.cut maxDepth) := by
  rw [← Forest.keep_eq_prune h, Forest.visited_keep, Nat.zero_add]

theorem Forest.pathAt_prune {maxDepth : Nat} (h : 0 < maxDepth) (offset : Nat) (f : Forest) :
    Forest.pathAt offset (f.prune maxDepth) = (Forest.pathAt offset f).take maxDepth := by
  rw [Forest.pathAt_eq offset 0, Forest.pathAt_eq offset 0, Forest.visited_prune h, List.map_map,
    List.map_take]
  rfl

/-- In a pruned forest, a search that would have gone further ends right above the depth. -/
theorem Forest.findAt_prune_of_getElem? {maxDepth : Nat} (h : 0 < maxDepth) {offset : Nat}
    {f : Forest} {row : Row} (hrow : (Forest.visited offset 0 f)[maxDepth - 1]? = some row) :
    Forest.findAt offset (f.prune maxDepth) = some { row.node with children := [] } := by
  have hdepth := (Forest.search_visited offset 0 f).depth_eq hrow
  have hlast : ((Forest.visited offset 0 f).take maxDepth).getLast? = some row := by
    have hlt := (List.getElem?_eq_some_iff.1 hrow).1
    rw [List.getLast?_take, if_neg (by omega), hrow]
    rfl
  have hlevels : maxDepth - row.depth - 1 = 0 := by omega
  rw [Forest.findAt_eq offset 0, Forest.visited_prune h, List.getLast?_map, hlast]
  simp only [Option.map_some, Row.cut, hlevels, Forest.keep]

/-- In a pruned forest, a search that ends above the depth ends at the same section, which is pruned
    to the levels that are left. -/
theorem Forest.findAt_prune_of_length_lt {maxDepth offset : Nat} {f : Forest}
    (h : (Forest.visited offset 0 f).length < maxDepth) :
    Forest.findAt offset (f.prune maxDepth)
      = (Forest.findAt offset f).map fun s =>
          { s with children :=
              Forest.prune (maxDepth - (Forest.visited offset 0 f).length) s.children } := by
  rw [Forest.findAt_eq offset 0, Forest.findAt_eq offset 0, Forest.visited_prune (by omega),
    List.take_of_length_le (Nat.le_of_lt h), List.getLast?_map, Option.map_map, Option.map_map]
  cases hlast : (Forest.visited offset 0 f).getLast? with
  | none => rfl
  | some row =>
    rw [List.getLast?_eq_getElem?] at hlast
    have hdepth := (Forest.search_visited offset 0 f).depth_eq hlast
    have hlt := (List.getElem?_eq_some_iff.1 hlast).1
    have hlevels : maxDepth - row.depth - 1
        = maxDepth - (Forest.visited offset 0 f).length := by omega
    simp only [Option.map_some, Function.comp_apply, Row.cut, hlevels,
      Forest.keep_eq_prune (Nat.sub_pos_of_lt h)]

/-! ## Both queries -/

/-- **Queries and pruning.** For every forest, in which sections may overlap and reach beyond the one
    that holds them, and for every offset, both queries are answered by one search:

    * there is no title if and only if there is no section. Otherwise the section stands at the depth
      that is one less than the number of titles, has the last of them, and none of its children
      holds the offset; and each section on the way is the first one next to it that holds the
      offset;
    * in the forest pruned at depth `d` the titles are the first `d` of them. The section is that
      which the search comes to at the depth `d - 1`, with nothing left of what it holds; or if it
      does not come as far, the one at which it ends, with what it holds pruned to the levels that are
      left. -/
theorem Forest.queries_agree (f : Forest) (offset : Nat) :
    let path := Forest.pathAt offset f
    let found := Forest.findAt offset f
    ∃ way, Forest.Search offset 0 f way ∧ path = way.map (·.node.name) ∧
      found = way.getLast?.map Row.node ∧
      (path = [] ↔ found = none) ∧
      (∀ s, found = some s → ⟨path.length - 1, s⟩ ∈ Forest.walk f ∧
        path.getLast? = some s.name ∧ ∀ child ∈ s.children, child.contains offset = false) ∧
      ∀ d, 1 ≤ d →
        Forest.pathAt offset (f.prune d) = path.take d ∧
        (∀ row, way[d - 1]? = some row →
          Forest.findAt offset (f.prune d) = some { row.node with children := [] }) ∧
        (way.length < d → Forest.findAt offset (f.prune d) = found.map fun s =>
          { s with children := Forest.prune (d - way.length) s.children }) := by
  intro path found
  have hsearch := Forest.search_visited offset 0 f
  have hpath : path = (Forest.visited offset 0 f).map (·.node.name) := Forest.pathAt_eq offset 0 f
  have hfound : found = (Forest.visited offset 0 f).getLast?.map Row.node :=
    Forest.findAt_eq offset 0 f
  refine ⟨Forest.visited offset 0 f, hsearch, hpath, hfound, ?_, ?_, ?_⟩
  · simp [hpath, hfound]
  · intro s hs
    rw [hfound, Option.map_eq_some_iff] at hs
    obtain ⟨row, hlast, rfl⟩ := hs
    refine ⟨?_, ?_, hsearch.getLast_children row hlast⟩
    · have hdepth : row.depth = path.length - 1 := by
        rw [List.getLast?_eq_getElem?] at hlast
        rw [hsearch.depth_eq hlast, hpath, List.length_map, Nat.zero_add]
      rw [← hdepth, Forest.walk_eq_rows]
      exact hsearch.mem_rows row (List.mem_of_getLast? hlast)
    · rw [hpath, List.getLast?_map, hlast]
      rfl
  · intro d hd
    refine ⟨Forest.pathAt_prune hd offset f, ?_, ?_⟩
    · intro row hrow
      exact Forest.findAt_prune_of_getElem? hd hrow
    · intro hlength
      exact Forest.findAt_prune_of_length_lt hlength

/-- Roots of which the first does not hold the offset, and children of the second that share it, the
    first of them reaching beyond the root; the search ends there, above a child before the offset. -/
theorem Forest.queries_agree_overlap :
    let inner : Section := ⟨['c'], 7, 3, 30, [⟨['d'], 1, 0, 2, []⟩]⟩
    let root : Section := ⟨['b'], 1, 0, 20, [inner, ⟨['e'], 2, 4, 4, []⟩]⟩
    let f : Forest := [⟨['a'], 1, 5, 9, []⟩, root]
    (Forest.findAt 4 f = some inner ∧ ⟨1, inner⟩ ∈ Forest.walk f ∧
      (Forest.pathAt 4 f).getLast? = some ['c'] ∧
      ∀ child ∈ inner.children, child.contains 4 = false) ∧
    (1 ≤ 1 ∧ Forest.pathAt 4 (f.prune 1) = [['b']] ∧
      ∃ row : Row, row.node.name = ['b'] ∧
        Forest.findAt 4 (f.prune 1) = some { row.node with children := [] }) ∧
    (2 < 5 ∧ Forest.findAt 4 (f.prune 5)
      = some { inner with children := Forest.prune 3 inner.children }) := by
  intro inner root f
  obtain ⟨way, -, hnames, -, -, hfound, hpruned⟩ := Forest.queries_agree f 4
  have hinner : Forest.findAt 4 f = some inner := rfl
  have hlength : way.length = 2 := by
    have hlengths := congrArg List.length hnames
    rw [List.length_map] at hlengths
    exact hlengths.symm
  obtain ⟨hpath, hcut, -⟩ := hpruned 1 (by decide)
  obtain ⟨-, -, hshort⟩ := hpruned 5 (by decide)
  have hfirst : (way.map (·.node.name))[0]? = some ['b'] := by
    rw [← hnames]
    rfl
  rw [List.getElem?_map, Option.map_eq_some_iff] at hfirst
  obtain ⟨row, hrow, hname⟩ := hfirst
  have hlast := hshort (by omega)
  rw [hinner, hlength] at hlast
  exact ⟨⟨hinner, hfound inner hinner⟩, ⟨by decide, hpath, row, hname, hcut row hrow⟩, by decide,
    hlast⟩

end DocOutline
