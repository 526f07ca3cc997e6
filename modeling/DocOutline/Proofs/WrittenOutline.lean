import DocOutline.Proofs.LineStarts
import DocOutline.Proofs.WrittenJson

set_option autoImplicit false

/-! # What is written for an outline

The options say how an outline is written: which of the two forms it has, down to which depth it goes,
and whether the lines of the tree show offsets. What is written is described by the sections
themselves (`Forest.WrittenAs`). In a tree each section that is above the depth has its line, spelled
out here. JSON is described by reading it: it gives back the pruned outline, with all that its
sections hold. For the outline of a text this leaves one text that can be written, and it is the one
that is (`Document.writtenAs_iff`). -/

namespace DocOutline

open Text

/-- The rows above a depth, or all of them if it is 0. -/
def Row.shown (maxDepth : Nat) (rows : List Row) : List Row :=
  rows.filter fun row => decide (maxDepth = 0 ∨ row.depth < maxDepth)

/-- The line of a section whose heading is at the start of a line of the text: two blanks for every
    section around it, and its title; and with offsets, its level, its extent and where it starts. -/
def Row.lineIn (text : Text) (showOffsets : Bool) (row : Row) : Text :=
  if showOffsets then row.renderAt (((bytes text).take row.node.start).count lineFeed)
  else List.replicate (2 * row.depth) ' ' ++ row.shownTitle ++ ['\n']

/-- What is written for the outline `f` of a text. -/
inductive Forest.WrittenAs (f : Forest) (text : Text) (options : OutputOptions) : Text → Prop
  /-- The tree has a line for each section above the depth, in reading order. -/
  | tree (hformat : options.format = .text) :
      Forest.WrittenAs f text options
        ((Row.shown options.maxDepth (Forest.rows 0 f)).flatMap
          (Row.lineIn text options.showOffsets))
  /-- From JSON the outline can be read back, pruned at the depth. -/
  | json {written : Text} (hformat : options.format = .json)
      (hwritten : written = (f.prune options.maxDepth).renderJson)
      (hread : Forest.ofJson? written = some (f.prune options.maxDepth)) :
      Forest.WrittenAs f text options written

/-! ## The tree -/

theorem Row.render_eq_lineIn {text : Text} {row : Row}
    (h : (LineTable.ofText text).position row.node.start
      = ⟨((bytes text).take row.node.start).count lineFeed, 0⟩) (showOffsets : Bool) :
    row.render (LineTable.ofText text) showOffsets = row.lineIn text showOffsets := by
  cases showOffsets with
  | true => exact Row.render_of_position h
  | false => simp [Row.render, Row.lineIn, Row.displayName_eq_shownTitle]

/-- The rows of the pruned forest are written as those above the depth. -/
theorem Forest.renderTree_prune_eq_shown (f : Forest) (maxDepth : Nat) (text : Text)
    (showOffsets : Bool) :
    (f.prune maxDepth).renderTree text showOffsets
      = (Row.shown maxDepth (Forest.rows 0 f)).flatMap
          (Row.render (LineTable.ofText text) showOffsets) := by
  rw [← Forest.walk_eq_rows]
  rcases Nat.eq_zero_or_pos maxDepth with rfl | hpos
  · simp [Row.shown, Forest.prune, Forest.renderTree]
  · have hne : maxDepth ≠ 0 := by omega
    simp only [Forest.renderTree_prune hpos, Row.shown, hne, false_or]

namespace Document

theorem position_of_mem_rows {rules : HeadingRules} {text : Text} {row : Row}
    (h : row ∈ Forest.rows 0 (ofText rules text).outline) :
    (LineTable.ofText text).position row.node.start
      = ⟨((bytes text).take row.node.start).count lineFeed, 0⟩ := by
  have hall : row ∈ Forest.walk ((ofText rules text).outline.prune 0) := by
    rw [Forest.walk_eq_rows]
    exact h
  exact position_of_mem_walk_prune hall

theorem renderTree_outline (rules : HeadingRules) (text : Text) (maxDepth : Nat)
    (showOffsets : Bool) :
    ((ofText rules text).outline.prune maxDepth).renderTree text showOffsets
      = (Row.shown maxDepth (Forest.rows 0 (ofText rules text).outline)).flatMap
          (Row.lineIn text showOffsets) := by
  rw [Forest.renderTree_prune_eq_shown]
  apply List.flatMap_congr
  intro row hrow
  exact Row.render_eq_lineIn (position_of_mem_rows (List.mem_filter.1 hrow).1) showOffsets

/-- What is written for the outline of a text is what the sections say. -/
theorem writtenAs_iff (rules : HeadingRules) (text : Text) (options : OutputOptions)
    (written : Text) :
    (ofText rules text).outline.WrittenAs text options written ↔
      written = (ofText rules text).outline.render text options := by
  unfold Forest.render
  constructor
  · intro h
    cases h with
    | tree hformat =>
      rw [hformat]
      exact (renderTree_outline rules text options.maxDepth options.showOffsets).symm
    | json hformat hwritten hread =>
      rw [hformat]
      exact hwritten
  · rintro rfl
    cases hformat : options.format with
    | text =>
      show Forest.WrittenAs _ _ _ (Forest.renderTree _ _ _)
      rw [renderTree_outline]
      exact .tree hformat
    | json => exact .json hformat rfl (Forest.ofJson?_renderJson _)

end Document

end DocOutline
