import DocOutline.Proofs.Walk
import DocOutline.Render.Tree
import DocOutline.Section.Prune
import Mathlib.Data.List.Forall2

set_option autoImplicit false

/-! # Pruning by depth

Pruning takes away children, level by level. In reading order it is simpler: of the rows of a
forest, those above the depth are kept, in their order, and each of them loses what it holds from
the depth on (`Forest.walk_prune`). A forest without rows at the depth stays as it is
(`Forest.prune_eq_self`).

What a row shows does not depend on what its section holds, so the tree that is written for a pruned
forest has the lines of the rows that are kept. Pruning twice is pruning once, at the smaller depth
(`Forest.prune_laws`). -/

namespace DocOutline

/-! ## Depths of rows -/

mutual
theorem Section.le_depth_of_mem_rows {depth : Nat} {row : Row} :
    ∀ s : Section, row ∈ s.rows depth → depth ≤ row.depth
  | ⟨name, level, start, stop, children⟩, h => by
    rw [Section.rows] at h
    rcases List.mem_cons.1 h with rfl | h
    · exact Nat.le_refl depth
    · exact Nat.le_of_succ_le (Forest.le_depth_of_mem_rows children h)

/-- No row of a forest is above its roots. -/
theorem Forest.le_depth_of_mem_rows {depth : Nat} {row : Row} :
    ∀ f : List Section, row ∈ Forest.rows depth f → depth ≤ row.depth
  | [], h => by simp [Forest.rows] at h
  | s :: rest, h => by
    rw [Forest.rows] at h
    rcases List.mem_append.1 h with h | h
    · exact Section.le_depth_of_mem_rows s h
    · exact Forest.le_depth_of_mem_rows rest h
end

/-- The rows of a root and of its children are rows of the forest. -/
theorem Forest.mem_rows_of_mem {depth : Nat} {f : Forest} {s : Section} (h : s ∈ f) :
    ⟨depth, s⟩ ∈ Forest.rows depth f ∧
      ∀ row ∈ Forest.rows (depth + 1) s.children, row ∈ Forest.rows depth f := by
  have hrows : ∀ row ∈ s.rows depth, row ∈ Forest.rows depth f := by
    intro row hrow
    rw [Forest.rows_eq_flatMap]
    exact List.mem_flatMap_of_mem h hrow
  rw [Section.rows_eq] at hrows
  exact List.forall_mem_cons.1 hrows

/-! ## What is kept -/

/-- A row without what its section holds at the depth `bound` and below. -/
def Row.cut (bound : Nat) (row : Row) : Row :=
  ⟨row.depth, { row.node with
    children := Forest.keep (bound - row.depth - 1) row.node.children }⟩

/-- A root is cut to the levels that are left below it. -/
theorem Row.cut_root (depth levels : Nat) (s : Section) :
    Row.cut (depth + (levels + 1)) ⟨depth, s⟩
      = ⟨depth, { s with children := Forest.keep levels s.children }⟩ := by
  have hleft : depth + (levels + 1) - depth - 1 = levels := by omega
  simp only [Row.cut, hleft]

/-- The rows above a depth, each cut at it. -/
def Row.above (bound : Nat) (rows : List Row) : List Row :=
  (rows.filter fun row => decide (row.depth < bound)).map (Row.cut bound)

theorem Row.above_append (bound : Nat) (rows more : List Row) :
    Row.above bound (rows ++ more) = Row.above bound rows ++ Row.above bound more := by
  simp only [Row.above, List.filter_append, List.map_append]

theorem Row.above_cons {bound : Nat} {row : Row} (h : row.depth < bound) (rows : List Row) :
    Row.above bound (row :: rows) = row.cut bound :: Row.above bound rows := by
  simp [Row.above, h]

/-- Keeping the first levels of a forest keeps the rows above the depth after them. -/
theorem Forest.rows_keep (levels depth : Nat) (f : Forest) :
    Forest.rows depth (Forest.keep levels f)
      = Row.above (depth + levels) (Forest.rows depth f) := by
  induction levels generalizing depth f with
  | zero =>
    have hnone : ((Forest.rows depth f).filter fun row => decide (row.depth < depth)) = [] := by
      simp only [List.filter_eq_nil_iff, decide_eq_true_eq, Nat.not_lt]
      intro row hrow
      exact Forest.le_depth_of_mem_rows f hrow
    rw [Row.above, Nat.add_zero, hnone]
    rfl
  | succ levels ih =>
    -- the levels go down by one and the depth goes up by one from a section to its children
    have hbound : depth + 1 + levels = depth + (levels + 1) := by omega
    induction f with
    | nil => rfl
    | cons s rest ihrest =>
      have hinside := ih (depth + 1) s.children
      rw [hbound] at hinside
      rw [Forest.keep] at ihrest ⊢
      rw [List.map_cons, Forest.rows, Section.rows_eq, hinside, ihrest, Forest.rows,
        Section.rows_eq, Row.above_append, Row.above_cons (by dsimp only; omega), Row.cut_root]

theorem Forest.keep_eq_prune {levels : Nat} (h : 0 < levels) (f : Forest) :
    Forest.keep levels f = f.prune levels := by
  rw [Forest.prune, if_neg (by omega)]

theorem Forest.walk_prune {maxDepth : Nat} (h : 0 < maxDepth) (f : Forest) :
    Forest.walk (f.prune maxDepth) = Row.above maxDepth (Forest.walk f) := by
  rw [← Forest.keep_eq_prune h, Forest.walk_eq_rows, Forest.rows_keep, Nat.zero_add,
    Forest.walk_eq_rows]

/-- What is kept of a forest are rows that it had, up to what they hold. -/
theorem Forest.exists_row_of_mem_walk_prune {maxDepth : Nat} {f : Forest} {row : Row}
    (h : row ∈ Forest.walk (f.prune maxDepth)) :
    ∃ full ∈ Forest.walk f, ∃ children,
      row = ⟨full.depth, { full.node with children := children }⟩ := by
  rcases Nat.eq_zero_or_pos maxDepth with rfl | hpos
  · obtain ⟨depth, name, level, start, stop, children⟩ := row
    exact ⟨_, h, children, rfl⟩
  · rw [Forest.walk_prune hpos, Row.above] at h
    obtain ⟨full, hfull, rfl⟩ := List.mem_map.1 h
    exact ⟨full, (List.mem_filter.1 hfull).1, _, rfl⟩

/-! ## Nothing to prune -/

theorem Forest.keep_eq_self {levels depth : Nat} {f : Forest}
    (h : ∀ row ∈ Forest.rows depth f, row.depth < depth + levels) : Forest.keep levels f = f := by
  induction levels generalizing depth f with
  | zero =>
    cases f with
    | nil => rfl
    | cons s rest =>
      have hroot := h _ (Forest.mem_rows_of_mem List.mem_cons_self).1
      exact absurd hroot (Nat.lt_irrefl depth)
  | succ levels ih =>
    have hsame : ∀ s ∈ f, { s with children := Forest.keep levels s.children } = s := by
      intro s hs
      have hchildren : Forest.keep levels s.children = s.children := by
        refine @ih (depth + 1) _ fun row hrow => ?_
        have := h row ((Forest.mem_rows_of_mem hs).2 row hrow)
        omega
      cases s
      simp_all
    rw [Forest.keep, List.map_congr_left hsame]
    exact List.map_id f

theorem Forest.prune_eq_self {maxDepth : Nat} {f : Forest}
    (h : ∀ row ∈ Forest.walk f, row.depth < maxDepth) : f.prune maxDepth = f := by
  rw [Forest.prune]
  split
  · rfl
  · rw [Forest.walk_eq_rows] at h
    exact @Forest.keep_eq_self maxDepth 0 f fun row hrow => by
      rw [Nat.zero_add]
      exact h row hrow

/-! ## Pruning twice -/

theorem Forest.keep_eq_nil_iff (levels : Nat) (f : Forest) :
    Forest.keep levels f = [] ↔ f = [] ∨ levels = 0 := by
  cases levels with
  | zero => simp [Forest.keep]
  | succ levels => simp [Forest.keep]

theorem Forest.keep_keep (first second : Nat) (f : Forest) :
    Forest.keep second (Forest.keep first f) = Forest.keep (min first second) f := by
  induction first generalizing second f with
  | zero => simp [Forest.keep, Forest.keep_eq_nil_iff]
  | succ first ih =>
    cases second with
    | zero => simp [Forest.keep]
    | succ second =>
      rw [Nat.succ_min_succ]
      simp only [Forest.keep, List.map_map]
      apply List.map_congr_left
      intro s _
      simp only [Function.comp_apply, ih]

/-- The smaller of two depths, of which 0 stands for no limit. -/
def tighterDepth (a b : Nat) : Nat := if a = 0 then b else if b = 0 then a else min a b

theorem tighterDepth_self (a : Nat) : tighterDepth a a = a := by simp [tighterDepth]

theorem tighterDepth_comm (a b : Nat) : tighterDepth a b = tighterDepth b a := by
  unfold tighterDepth
  split_ifs <;> omega

theorem Forest.prune_prune (a b : Nat) (f : Forest) :
    (f.prune a).prune b = f.prune (tighterDepth a b) := by
  by_cases ha : a = 0
  · simp [tighterDepth, Forest.prune, ha]
  · by_cases hb : b = 0
    · simp [tighterDepth, Forest.prune, ha, hb]
    · have hmin : min a b ≠ 0 := by omega
      simp [tighterDepth, Forest.prune, ha, hb, hmin, Forest.keep_keep]

/-! ## What is written of a pruned forest -/

/-- What becomes of a row if its forest is pruned at the depth `bound`, and it is kept: all that can
    change is what its section holds. It holds nothing if it has held nothing before, or if it stands
    right above the depth. -/
structure Row.KeptAs (bound : Nat) (full kept : Row) : Prop where
  depth : kept.depth = full.depth
  name : kept.node.name = full.node.name
  level : kept.node.level = full.node.level
  start : kept.node.start = full.node.start
  stop : kept.node.stop = full.node.stop
  leaf : kept.node.isLeaf = true ↔ full.node.isLeaf = true ∨ full.depth = bound - 1

theorem Row.keptAs_cut {bound : Nat} {row : Row} (h : row.depth < bound) :
    Row.KeptAs bound row (row.cut bound) := by
  refine ⟨rfl, rfl, rfl, rfl, rfl, ?_⟩
  have hlevels : bound - row.depth - 1 = 0 ↔ row.depth = bound - 1 := by omega
  simp only [Row.cut, Section.isLeaf, List.isEmpty_iff, Forest.keep_eq_nil_iff, hlevels]

theorem Row.forall₂_keptAs (bound : Nat) (rows : List Row) :
    List.Forall₂ (Row.KeptAs bound) (rows.filter fun row => decide (row.depth < bound))
      (Row.above bound rows) := by
  rw [Row.above, List.forall₂_map_right_iff, List.forall₂_same]
  intro row hrow
  have hdepth := (List.mem_filter.1 hrow).2
  exact Row.keptAs_cut (of_decide_eq_true hdepth)

/-- The title that a row shows: that of its section, or a note that it has none. -/
def Row.shownTitle (row : Row) : Text :=
  if row.node.name = [] then "(untitled)".toList else row.node.name

theorem Row.displayName_eq_shownTitle (row : Row) : displayName row.node.name = row.shownTitle := by
  unfold displayName Row.shownTitle
  by_cases hname : row.node.name = []
  · simp [hname]
  · simp [hname]

/-- A row shows the same whatever its section holds. -/
theorem Row.render_cut (table : LineTable) (showOffsets : Bool) (bound : Nat) (row : Row) :
    (row.cut bound).render table showOffsets = row.render table showOffsets := rfl

theorem Forest.renderTree_prune {maxDepth : Nat} (h : 0 < maxDepth) (f : Forest) (text : Text)
    (showOffsets : Bool) :
    (f.prune maxDepth).renderTree text showOffsets
      = ((Forest.walk f).filter fun row => decide (row.depth < maxDepth)).flatMap
          (Row.render (LineTable.ofText text) showOffsets) := by
  rw [Forest.renderTree, Forest.walk_prune h, Row.above, List.flatMap_map]
  simp only [Row.render_cut]

/-- **Pruning laws.** For every forest, whatever its levels and extents are:

    * pruning at a depth keeps the rows above it, in their order, and of each of them all but what
      its section holds; a section that is kept is a leaf if it was one, or if it stands right above
      the depth;
    * a depth of 0 keeps everything, and pruning twice is pruning at the smaller depth, if 0 counts
      as no limit, so pruning again changes nothing and the order does not matter;
    * the tree that is written has an entry for each row, and that of the pruned forest has those of
      the rows above the depth. -/
theorem Forest.prune_laws (f : Forest) :
    (∀ d, 1 ≤ d → List.Forall₂ (Row.KeptAs d)
      ((Forest.walk f).filter fun row => decide (row.depth < d)) (Forest.walk (f.prune d))) ∧
    f.prune 0 = f ∧
    (∀ a b, (f.prune a).prune b = f.prune (tighterDepth a b)) ∧
    (∀ d, (f.prune d).prune d = f.prune d) ∧
    (∀ a b, (f.prune a).prune b = (f.prune b).prune a) ∧
    ∀ (text : Text) (showOffsets : Bool),
      let entry := Row.render (LineTable.ofText text) showOffsets
      f.renderTree text showOffsets = (Forest.walk f).flatMap entry ∧
      ∀ d, 1 ≤ d → (f.prune d).renderTree text showOffsets
        = ((Forest.walk f).filter fun row => decide (row.depth < d)).flatMap entry := by
  refine ⟨?_, rfl, ?_, ?_, ?_, ?_⟩
  · intro d hd
    rw [Forest.walk_prune hd]
    exact Row.forall₂_keptAs d (Forest.walk f)
  · intro a b
    exact Forest.prune_prune a b f
  · intro d
    rw [Forest.prune_prune, tighterDepth_self]
  · intro a b
    rw [Forest.prune_prune, Forest.prune_prune, tighterDepth_comm]
  · intro text showOffsets entry
    refine ⟨rfl, ?_⟩
    intro d hd
    exact Forest.renderTree_prune hd f text showOffsets

/-- Three sections inside one another, of which the last has the title of the first: pruned at depth
    2, the first two are left. -/
theorem Forest.prune_laws_chain :
    let inner : Section := ⟨['b'], 1, 7, 2, [⟨['a'], 1, 0, 9, []⟩]⟩
    let f : Forest := [⟨['a'], 1, 0, 9, [inner]⟩]
    1 ≤ 2 ∧ (Forest.walk (f.prune 2)).length = 2 ∧
    List.Forall₂ (Row.KeptAs 2) [⟨0, ⟨['a'], 1, 0, 9, [inner]⟩⟩, ⟨1, inner⟩]
      (Forest.walk (f.prune 2)) ∧
    (f.prune 2).renderTree [] false = ['a', '\n', ' ', ' ', 'b', '\n'] := by
  intro inner f
  obtain ⟨hrows, -, -, -, -, hwritten⟩ := Forest.prune_laws f
  have hkept := hrows 2 (by decide)
  have hentries := (hwritten [] false).2 2 (by decide)
  rw [Forest.walk_eq_rows] at hkept hentries
  exact ⟨by decide, hkept.length_eq.symm, hkept, hentries⟩

end DocOutline
