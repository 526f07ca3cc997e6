import DocOutline.Section.Basic

set_option autoImplicit false

/-! # Walking a forest

A walk visits the sections of a forest one at a time, in reading order, and can be stopped and
taken up again: all that it keeps is the sections that are still to be visited. -/

namespace DocOutline

/-- A walk under way: the sections still to be visited, the next one first, each standing for
    itself and everything inside it. -/
abbrev Walk := List Row

namespace Walk

/-- The walk that has yet to visit all of a forest. -/
def start (f : Forest) : Walk := f.map (⟨0, ·⟩)

/-- Visits one section; its children come next, one deeper, and then the rest. -/
def next? : Walk → Option (Row × Walk)
  | [] => none
  | row :: rest => some (row, row.node.children.map (⟨row.depth + 1, ·⟩) ++ rest)

/-- Number of sections that a walk will still visit. -/
def remaining (w : Walk) : Nat := Forest.size (w.map Row.node)

theorem remaining_of_next? {w w' : Walk} {row : Row} (h : w.next? = some (row, w')) :
    remaining w = remaining w' + 1 := by
  cases w with
  | nil => simp [next?] at h
  | cons r rest =>
    simp only [next?, Option.some.injEq, Prod.mk.injEq] at h
    obtain ⟨-, rfl⟩ := h
    have hmap : (r.node.children.map (fun s => Row.mk (r.depth + 1) s)).map Row.node
        = r.node.children := by simp [Function.comp_def]
    simp only [remaining, List.map_cons, List.map_append, hmap, Forest.size,
      Forest.size_append, Section.size_eq]
    omega

/-- Everything that a walk still visits, in order. -/
def toList (w : Walk) : List Row :=
  match _h : w.next? with
  | none => []
  | some (row, w') => row :: toList w'
termination_by remaining w
decreasing_by
  have := remaining_of_next? _h
  omega

end Walk

/-- The sections of a forest in reading order, with their depths. -/
def Forest.walk (f : Forest) : List Row := (Walk.start f).toList

/-- Number of sections in a forest, counted by walking it. -/
def Forest.count (f : Forest) : Nat := (Forest.walk f).length

end DocOutline
