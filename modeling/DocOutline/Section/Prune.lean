import DocOutline.Section.Basic

set_option autoImplicit false

/-! # Pruning

Pruning keeps the sections of a forest down to a depth. A depth of 0 stands for no limit. -/

namespace DocOutline

/-- The first `levels` levels of a forest. -/
def Forest.keep : Nat → Forest → Forest
  | 0, _ => []
  | levels + 1, f => f.map fun s => { s with children := Forest.keep levels s.children }

/-- The forest without the sections at depth `maxDepth` and below; all of it if that is 0. -/
def Forest.prune (maxDepth : Nat) (f : Forest) : Forest :=
  if maxDepth = 0 then f else Forest.keep maxDepth f

end DocOutline
