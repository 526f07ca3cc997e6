import DocOutline.Text.Basic

set_option autoImplicit false

/-! # Sections

A section is a heading with everything that stands below it: its title, its level, the first and
the last byte of its extent, and the sections directly inside it. An outline is a forest of them.

Like tokens, sections are plain data, and nothing here assumes that extents are nested or that
levels increase; what holds of the sections of a document is proved of the function that builds
them. The rows of a forest are its sections in reading order, each with its depth. -/

namespace DocOutline

/-- A heading with everything that stands below it. -/
structure Section where
  name : Text
  level : Nat
  /-- First byte of the heading. -/
  start : Nat
  /-- Last byte of the section. -/
  stop : Nat
  children : List Section
  deriving Repr, Inhabited

/-- Sections that stand next to each other. -/
abbrev Forest := List Section

/-- A section with its depth, which is 0 for the roots of a forest. -/
structure Row where
  depth : Nat
  node : Section
  deriving Repr, Inhabited

namespace Section

/-- Does the extent hold the byte at `offset`? -/
def contains (s : Section) (offset : Nat) : Bool := s.start ≤ offset && offset ≤ s.stop

def isLeaf (s : Section) : Bool := s.children.isEmpty

end Section

/-! ## Rows and size -/

mutual
/-- The rows of a section at the given depth: itself, then its children one deeper. -/
def Section.rows (depth : Nat) : Section → List Row
  | ⟨name, level, start, stop, children⟩ =>
    ⟨depth, ⟨name, level, start, stop, children⟩⟩ :: Forest.rows (depth + 1) children

/-- The rows of a forest whose roots are at the given depth. -/
def Forest.rows (depth : Nat) : List Section → List Row
  | [] => []
  | s :: rest => s.rows depth ++ Forest.rows depth rest
end

mutual
/-- Number of sections in a section, itself included. -/
def Section.size : Section → Nat
  | ⟨_, _, _, _, children⟩ => Forest.size children + 1

/-- Number of sections in a forest. -/
def Forest.size : List Section → Nat
  | [] => 0
  | s :: rest => s.size + Forest.size rest
end

@[simp] theorem Forest.size_append (f g : Forest) :
    Forest.size (f ++ g) = Forest.size f + Forest.size g := by
  induction f with
  | nil => simp [Forest.size]
  | cons s f ih => simp [Forest.size, ih, Nat.add_assoc]

theorem Section.size_eq (s : Section) : s.size = Forest.size s.children + 1 := by
  cases s; rfl

end DocOutline
