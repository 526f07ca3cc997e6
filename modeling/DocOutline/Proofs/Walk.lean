import DocOutline.Section.Walk

set_option autoImplicit false

/-! # Reading order

The walk of a forest keeps a list of sections that are still to be visited. This file relates it to
the rows of the forest, which are defined by recursion on the tree: whatever a walk has yet to
visit, it visits the rows of its first entry, then those of the second, and so on
(`Walk.toList_eq_ahead`). The walk is run to its end by recursion; that the same comes out if it is
asked for one section after the other is `Walk.reading_order`.

Sections carry no identity, so two of them may be equal as values. Where it matters which section
is the parent of which, sections are numbered in reading order, and `Forest.parents` lists the
number of each one's parent. `Forest.parents_spec` says what the numbers mean for the rows. -/

namespace DocOutline

/-! ## Rows -/

theorem Section.rows_eq (depth : Nat) (s : Section) :
    s.rows depth = ⟨depth, s⟩ :: Forest.rows (depth + 1) s.children := by
  cases s; rfl

theorem Forest.rows_eq_flatMap (depth : Nat) (f : Forest) :
    Forest.rows depth f = f.flatMap (Section.rows depth) := by
  induction f with
  | nil => rfl
  | cons s f ih => rw [Forest.rows, ih, List.flatMap_cons]

@[simp] theorem Forest.rows_append (depth : Nat) (f g : Forest) :
    Forest.rows depth (f ++ g) = Forest.rows depth f ++ Forest.rows depth g := by
  simp only [Forest.rows_eq_flatMap, List.flatMap_append]

mutual
/-- There is one row for every section. -/
theorem Section.length_rows (depth : Nat) : ∀ s : Section, (s.rows depth).length = s.size
  | ⟨_, _, _, _, children⟩ => by
    simp only [Section.rows, Section.size, List.length_cons, Forest.length_rows]

theorem Forest.length_rows (depth : Nat) :
    ∀ f : List Section, (Forest.rows depth f).length = Forest.size f
  | [] => rfl
  | s :: rest => by
    simp only [Forest.rows, Forest.size, List.length_append, Section.length_rows depth s,
      Forest.length_rows depth rest]
end

mutual
/-- The sections of the rows, without their depths, do not depend on the depth of the roots. -/
theorem Section.map_node_rows (depth depth' : Nat) :
    ∀ s : Section, (s.rows depth).map Row.node = (s.rows depth').map Row.node
  | ⟨_, _, _, _, children⟩ => by
    simp only [Section.rows, List.map_cons, Forest.map_node_rows (depth + 1) (depth' + 1) children]

theorem Forest.map_node_rows (depth depth' : Nat) :
    ∀ f : List Section, (Forest.rows depth f).map Row.node = (Forest.rows depth' f).map Row.node
  | [] => rfl
  | s :: rest => by
    simp only [Forest.rows, List.map_append, Section.map_node_rows depth depth' s,
      Forest.map_node_rows depth depth' rest]
end

/-! ## The walk -/

/-- The rows that a walk has yet to visit: those of its entries, the next one first. -/
def Walk.ahead (w : Walk) : List Row := w.flatMap fun row => row.node.rows row.depth

theorem Walk.next?_eq_none_iff {w : Walk} : w.next? = none ↔ w = [] := by
  cases w <;> simp [Walk.next?]

/-- A visit takes the first of the rows ahead and leaves the others. -/
theorem Walk.ahead_of_next? {w w' : Walk} {row : Row} (h : w.next? = some (row, w')) :
    w.ahead = row :: w'.ahead := by
  cases w with
  | nil => simp [Walk.next?] at h
  | cons first rest =>
    simp only [Walk.next?, Option.some.injEq, Prod.mk.injEq] at h
    obtain ⟨rfl, rfl⟩ := h
    unfold Walk.ahead
    rw [List.flatMap_append, List.flatMap_cons, Section.rows_eq, Forest.rows_eq_flatMap,
      List.flatMap_map, List.cons_append]

/-- A walk under way visits the rows of its entries, one entry after the other. -/
theorem Walk.toList_eq_ahead (w : Walk) : w.toList = w.ahead := by
  fun_induction Walk.toList w with
  | case1 w h =>
    rw [Walk.next?_eq_none_iff.1 h]
    rfl
  | case2 w row w' h ih => rw [ih, Walk.ahead_of_next? h]

theorem Walk.ahead_start (f : Forest) : (Walk.start f).ahead = Forest.rows 0 f := by
  rw [Walk.ahead, Walk.start, List.flatMap_map, Forest.rows_eq_flatMap]

theorem Forest.walk_eq_rows (f : Forest) : Forest.walk f = Forest.rows 0 f := by
  rw [Forest.walk, Walk.toList_eq_ahead, Walk.ahead_start]

theorem Forest.rows_singleton (depth : Nat) (s : Section) :
    Forest.rows depth [s] = s.rows depth := by
  rw [Forest.rows, Forest.rows, List.append_nil]

/-- The walk of a forest is the walks of its roots, one after the other. -/
theorem Forest.walk_eq_flatMap_walk (f : Forest) :
    Forest.walk f = f.flatMap fun root => Forest.walk [root] := by
  simp only [Forest.walk_eq_rows, Forest.rows_singleton]
  exact Forest.rows_eq_flatMap 0 f

theorem Forest.count_eq_size (f : Forest) : Forest.count f = Forest.size f := by
  rw [Forest.count, Forest.walk_eq_rows, Forest.length_rows]

/-! ## Visit by visit -/

/-- Visiting one section after the other from `w` gives the rows `visited` and leaves `w'`. -/
inductive Walk.Visits : Walk → List Row → Walk → Prop
  | rest (w : Walk) : Visits w [] w
  | next {w w' w'' : Walk} {row : Row} {visited : List Row} (h : w.next? = some (row, w'))
      (hrest : Visits w' visited w'') : Visits w (row :: visited) w''

namespace Walk.Visits

variable {w w' : Walk} {visited : List Row}

/-- What was visited and what is still ahead make up what was ahead at first. -/
theorem ahead_eq (h : w.Visits visited w') : w.ahead = visited ++ w'.ahead := by
  induction h with
  | rest => rfl
  | next h _ ih => rw [ahead_of_next? h, ih, List.cons_append]

theorem remaining_eq (h : w.Visits visited w') :
    w.remaining = visited.length + w'.remaining := by
  induction h with
  | rest w => simp
  | next h _ ih =>
    rw [remaining_of_next? h, ih, List.length_cons]
    omega

end Walk.Visits

namespace Walk

theorem remaining_eq_zero_iff {w : Walk} : w.remaining = 0 ↔ w.next? = none := by
  cases w with
  | nil => simp [remaining, Forest.size, next?]
  | cons row rest => simp [remaining, Forest.size, Section.size_eq, next?]

/-- A walk can be carried on to its end. -/
theorem visits_toList (w : Walk) : w.Visits w.toList [] := by
  fun_induction Walk.toList w with
  | case1 w h =>
    rw [next?_eq_none_iff.1 h]
    exact .rest []
  | case2 w row w' h ih => exact .next h ih

/-- A walk that is carried on until nothing is left visits what was ahead, and nothing else. -/
theorem visits_to_end_iff {w : Walk} {visited : List Row} :
    (∃ w', w.Visits visited w' ∧ w'.next? = none) ↔ visited = w.ahead := by
  constructor
  · rintro ⟨w', h, hend⟩
    rw [h.ahead_eq, next?_eq_none_iff.1 hend]
    exact (List.append_nil visited).symm
  · rintro rfl
    refine ⟨[], ?_, rfl⟩
    rw [← toList_eq_ahead]
    exact w.visits_toList

/-- **A walk visits everything once, in reading order.**

    * The walk of a section, carried on until nothing is left, visits the rows of the section from
      depth 0 on, and nothing else.
    * From any state, whether a walk comes to it or not, the walk can be carried on to its end, and
      visits the rows of the entries that are left, the next one first.
    * At any moment, what was visited and what is ahead make up what was ahead at first. A walk makes
      at most as many visits as there are sections in its entries, and is over when it has made them
      all.
    * A forest is walked root by root, and counting its sections by walking gives their number by
      recursion. -/
theorem reading_order :
    (∀ s : Section, Forest.walk [s] = s.rows 0 ∧ ∀ visited,
      (∃ w, (start [s]).Visits visited w ∧ w.next? = none) ↔ visited = s.rows 0) ∧
    (∀ w : Walk, w.toList = w.ahead ∧ ∀ visited,
      (∃ w', w.Visits visited w' ∧ w'.next? = none) ↔ visited = w.ahead) ∧
    (∀ (w w' : Walk) (visited : List Row), w.Visits visited w' →
      w.ahead = visited ++ w'.ahead ∧ visited.length ≤ w.remaining ∧
        (w'.next? = none ↔ visited.length = w.remaining)) ∧
    (∀ f : Forest, Forest.walk f = (f.flatMap fun s => Forest.walk [s]) ∧
      Forest.count f = Forest.size f) := by
  refine ⟨fun s => ⟨?_, fun visited => ?_⟩, fun w => ⟨w.toList_eq_ahead, fun _ => visits_to_end_iff⟩,
    fun w w' visited h => ⟨h.ahead_eq, ?_, ?_⟩,
    fun f => ⟨Forest.walk_eq_flatMap_walk f, Forest.count_eq_size f⟩⟩
  · rw [Forest.walk_eq_rows, Forest.rows_singleton]
  · rw [visits_to_end_iff, ahead_start, Forest.rows_singleton]
  · have hremaining := h.remaining_eq
    omega
  · have hremaining := h.remaining_eq
    rw [← remaining_eq_zero_iff]
    omega

/-- A section with two children, the first of which has a child: after two visits this one comes
    next, and then the second child. -/
theorem reading_order_two_visits :
    let inner : Section := ⟨['C'], 3, 8, 11, []⟩
    let first : Section := ⟨['B'], 2, 4, 11, [inner]⟩
    let second : Section := ⟨['D'], 2, 12, 15, []⟩
    let root : Section := ⟨['A'], 1, 0, 15, [first, second]⟩
    let w : Walk := [⟨2, inner⟩, ⟨1, second⟩]
    (start [root]).Visits [⟨0, root⟩, ⟨1, first⟩] w ∧
      (start [root]).ahead = [⟨0, root⟩, ⟨1, first⟩] ++ w.ahead ∧
      w.ahead = [⟨2, inner⟩, ⟨1, second⟩] := by
  intro inner first second root w
  have hvisits : (start [root]).Visits [⟨0, root⟩, ⟨1, first⟩] w := .next rfl (.next rfl (.rest w))
  exact ⟨hvisits, (reading_order.2.2.1 _ _ _ hvisits).1, rfl⟩

end Walk

/-! ## Parents -/

mutual
/-- For a section and everything inside it, in reading order, the number of each one's parent, if
    the section has the number `index` and the parent `parent`. -/
def Section.parents (parent : Option Nat) (index : Nat) : Section → List (Option Nat)
  | ⟨_, _, _, _, children⟩ => parent :: Forest.parents (some index) (index + 1) children

/-- For the sections of a forest in reading order, the number of each one's parent, if the numbers
    start at `index` and the roots have the parent `parent`. -/
def Forest.parents (parent : Option Nat) (index : Nat) : List Section → List (Option Nat)
  | [] => []
  | s :: rest => s.parents parent index ++ Forest.parents parent (index + s.size) rest
end

theorem Section.parents_eq (parent : Option Nat) (index : Nat) (s : Section) :
    s.parents parent index = parent :: Forest.parents (some index) (index + 1) s.children := by
  cases s; rfl

theorem Forest.parents_append (parent : Option Nat) (index : Nat) (f g : Forest) :
    Forest.parents parent index (f ++ g)
      = Forest.parents parent index f ++ Forest.parents parent (index + Forest.size f) g := by
  induction f generalizing index with
  | nil => rfl
  | cons s f ih =>
    simp only [List.cons_append, Forest.parents, Forest.size, ih, List.append_assoc, Nat.add_assoc]

mutual
theorem Section.length_parents (parent : Option Nat) (index : Nat) :
    ∀ s : Section, (s.parents parent index).length = s.size
  | ⟨_, _, _, _, children⟩ => by
    simp only [Section.parents, Section.size, List.length_cons, Forest.length_parents]

theorem Forest.length_parents (parent : Option Nat) (index : Nat) :
    ∀ f : List Section, (Forest.parents parent index f).length = Forest.size f
  | [] => rfl
  | s :: rest => by
    simp only [Forest.parents, Forest.size, List.length_append,
      Section.length_parents parent index s, Forest.length_parents parent (index + s.size) rest]
end

mutual
/-- Renumbering: if `g` moves every number up by `offset`, it turns the parents of a section into
    those of the same section counted from further up. -/
theorem Section.parents_map (g : Option Nat → Option Nat) (offset : Nat)
    (hg : ∀ n, g (some n) = some (n + offset)) (parent : Option Nat) (index : Nat) :
    ∀ s : Section, s.parents (g parent) (index + offset) = (s.parents parent index).map g
  | ⟨_, _, _, _, children⟩ => by
    have ih := Forest.parents_map g offset hg (some index) (index + 1) children
    rw [hg] at ih
    rw [Section.parents, Section.parents, List.map_cons, ← ih, Nat.add_right_comm]

theorem Forest.parents_map (g : Option Nat → Option Nat) (offset : Nat)
    (hg : ∀ n, g (some n) = some (n + offset)) (parent : Option Nat) (index : Nat) :
    ∀ f : List Section,
      Forest.parents (g parent) (index + offset) f = (Forest.parents parent index f).map g
  | [] => rfl
  | s :: rest => by
    rw [Forest.parents, Forest.parents, List.map_append,
      ← Section.parents_map g offset hg parent index s,
      ← Forest.parents_map g offset hg parent (index + s.size) rest, Nat.add_right_comm]
end

/-- In a list of rows, the section at `i` is a child of the section at `p`. -/
def ChildRow (rows : List Row) (p i : Nat) : Prop :=
  ∃ parent child, rows[p]? = some parent ∧ rows[i]? = some child ∧
    child.depth = parent.depth + 1 ∧ child.node ∈ parent.node.children

theorem ChildRow.append_left {rows : List Row} {p i : Nat} (h : ChildRow rows p i)
    (more : List Row) : ChildRow (rows ++ more) p i := by
  obtain ⟨parent, child, hp, hi, hdepth, hmem⟩ := h
  have hplt := (List.getElem?_eq_some_iff.1 hp).1
  have hilt := (List.getElem?_eq_some_iff.1 hi).1
  exact ⟨parent, child, by rw [List.getElem?_append_left hplt, hp],
    by rw [List.getElem?_append_left hilt, hi], hdepth, hmem⟩

theorem ChildRow.append_right {rows : List Row} {p i : Nat} (h : ChildRow rows p i)
    (before : List Row) : ChildRow (before ++ rows) (before.length + p) (before.length + i) := by
  obtain ⟨parent, child, hp, hi, hdepth, hmem⟩ := h
  refine ⟨parent, child, ?_, ?_, hdepth, hmem⟩
  · rw [List.getElem?_append_right (by omega), Nat.add_sub_cancel_left, hp]
  · rw [List.getElem?_append_right (by omega), Nat.add_sub_cancel_left, hi]

mutual
theorem Section.parents_spec (depth : Nat) (parent : Option Nat) (index : Nat) :
    ∀ (s : Section) (i : Nat) (o : Option Nat), (s.parents parent index)[i]? = some o →
      (i = 0 ∧ o = parent) ∨ ∃ p, o = some (index + p) ∧ p < i ∧ ChildRow (s.rows depth) p i
  | ⟨name, level, start, stop, children⟩, 0, o, h => by
    rw [Section.parents, List.getElem?_cons_zero, Option.some.injEq] at h
    exact Or.inl ⟨rfl, h.symm⟩
  | ⟨name, level, start, stop, children⟩, i + 1, o, h => by
    rw [Section.parents, List.getElem?_cons_succ] at h
    rw [Section.rows]
    refine Or.inr ?_
    rcases Forest.parents_spec (depth + 1) (some index) (index + 1) children i o h with
      ⟨rfl, root, hmem, hrow⟩ | ⟨p, rfl, hp, hchild⟩
    · refine ⟨0, rfl, Nat.succ_pos i, ⟨depth, ⟨name, level, start, stop, children⟩⟩,
        ⟨depth + 1, root⟩, rfl, ?_, rfl, hmem⟩
      rw [List.getElem?_cons_succ, hrow]
    · refine ⟨p + 1, by rw [Nat.add_right_comm, Nat.add_assoc], Nat.succ_lt_succ hp, ?_⟩
      have hshift := hchild.append_right [⟨depth, ⟨name, level, start, stop, children⟩⟩]
      simpa [Nat.add_comm] using hshift

/-- The parents of a forest and its rows: a section either has the parent given for the roots, and
    is a root at the given depth, or its parent is an earlier section that it is a child of. -/
theorem Forest.parents_spec (depth : Nat) (parent : Option Nat) (index : Nat) :
    ∀ (f : List Section) (i : Nat) (o : Option Nat), (Forest.parents parent index f)[i]? = some o →
      (o = parent ∧ ∃ root ∈ f, (Forest.rows depth f)[i]? = some ⟨depth, root⟩) ∨
      ∃ p, o = some (index + p) ∧ p < i ∧ ChildRow (Forest.rows depth f) p i
  | [], i, o, h => by simp [Forest.parents] at h
  | s :: rest, i, o, h => by
    rw [Forest.parents] at h
    rw [Forest.rows]
    by_cases hi : i < s.size
    · rw [List.getElem?_append_left (by rw [Section.length_parents]; exact hi)] at h
      rcases Section.parents_spec depth parent index s i o h with ⟨rfl, rfl⟩ | ⟨p, rfl, hp, hchild⟩
      · exact Or.inl ⟨rfl, s, List.mem_cons_self, by rw [Section.rows_eq]; rfl⟩
      · exact Or.inr ⟨p, rfl, hp, hchild.append_left _⟩
    · -- past the first root: count from the first row of the others
      have hlen : (s.rows depth).length = s.size := Section.length_rows depth s
      obtain ⟨k, rfl⟩ : ∃ k, i = s.size + k := ⟨i - s.size, by omega⟩
      rw [List.getElem?_append_right (by rw [Section.length_parents]; omega),
        Section.length_parents, Nat.add_sub_cancel_left] at h
      rcases Forest.parents_spec depth parent (index + s.size) rest k o h with
        ⟨rfl, root, hmem, hrow⟩ | ⟨p, rfl, hp, hchild⟩
      · refine Or.inl ⟨rfl, root, List.mem_cons_of_mem s hmem, ?_⟩
        rw [List.getElem?_append_right (by omega), hlen, Nat.add_sub_cancel_left, hrow]
      · refine Or.inr ⟨s.size + p, by rw [Nat.add_assoc], by omega, ?_⟩
        have hshift := hchild.append_right (s.rows depth)
        rwa [hlen] at hshift
end

end DocOutline
