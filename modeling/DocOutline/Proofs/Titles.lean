import DocOutline.Proofs.LineGrammar
import DocOutline.Section.Title
import Mathlib.Data.List.DropRight
import Mathlib.Data.List.TakeWhile

set_option autoImplicit false

/-! # What a title is

A title is found by taking characters away: white space, then a run of one marker, then white space
on both sides. What is found can be said without the order of these steps. A heading is white space,
a run of one marker, white space, the title and white space again, where the run is as long as it
can be, is left out only if there is no marker to start it, and the title neither starts nor ends
with white space (`TitleSplit`).

Any text can be taken apart like this, and however it is done, the title is the same
(`title_decomposes`). The other parts need not be: if there are no markers, white space in front of
the title may be counted before or after them. -/

namespace DocOutline

open Text

/-! ## Trimming -/

namespace Text

/-- A text that neither starts nor ends with white space. -/
structure Trimmed (t : Text) : Prop where
  head : ∀ c ∈ t.head?, isSpace c = false
  last : ∀ c ∈ t.getLast?, isSpace c = false

/-- The first element that is not dropped fails the condition. -/
theorem head?_dropWhile_eq_false {α : Type} (p : α → Bool) (l : List α) :
    ∀ a ∈ (l.dropWhile p).head?, p a = false := by
  intro a ha
  have hnot := List.head?_dropWhile_not p l
  rw [Option.mem_def.1 ha] at hnot
  simpa using hnot

/-- White space in front of a text is trimmed with the rest. -/
theorem trimStart_append {front : Text} (h : ∀ c ∈ front, isSpace c = true) (t : Text) :
    trimStart (front ++ t) = trimStart t :=
  List.dropWhile_append_of_pos h

theorem trimStart_of_head {t : Text} (h : ∀ c ∈ t.head?, isSpace c = false) : trimStart t = t := by
  cases t with
  | nil => rfl
  | cons c t => simp [trimStart, h c rfl]

theorem trim_trimStart (t : Text) : trim (trimStart t) = trim t := by
  unfold trim trimStart
  rw [List.dropWhile_idempotent]

theorem exists_trimStart_append (t : Text) :
    ∃ front, (∀ c ∈ front, isSpace c = true) ∧ t = front ++ trimStart t :=
  ⟨t.takeWhile isSpace, List.all_eq_true.1 List.all_takeWhile,
    List.takeWhile_append_dropWhile.symm⟩

/-- Trimming takes away white space only. -/
theorem exists_trim_append (t : Text) :
    ∃ front tail, (∀ c ∈ front, isSpace c = true) ∧ (∀ c ∈ tail, isSpace c = true) ∧
      t = front ++ (trim t ++ tail) := by
  obtain ⟨front, hfront, ht⟩ := exists_trimStart_append t
  obtain ⟨tail, hstart, htail⟩ := exists_dropEndWhile_append isSpace (trimStart t)
  refine ⟨front, tail, hfront, htail, ?_⟩
  calc t = front ++ trimStart t := ht
    _ = front ++ (trim t ++ tail) := congrArg (front ++ ·) hstart

theorem trimmed_trim (t : Text) : Trimmed (trim t) := by
  constructor
  · -- what is dropped from the end leaves the first character in place
    intro c hc
    obtain ⟨tail, hstart, -⟩ := exists_dropEndWhile_append isSpace (trimStart t)
    refine head?_dropWhile_eq_false isSpace t c ?_
    show c ∈ (trimStart t).head?
    unfold trim trimEnd at hc
    rw [hstart, List.head?_append, hc]
    rfl
  · intro c hc
    obtain ⟨hne, rfl⟩ := List.mem_getLast?_eq_getLast hc
    have hlast := List.rdropWhile_last_not isSpace (trimStart t) hne
    exact Bool.eq_false_iff.2 hlast

/-- What stands between white space and neither starts nor ends with it is what trimming leaves. -/
theorem Trimmed.trim_append {front name tail : Text} (hname : Trimmed name)
    (hfront : ∀ c ∈ front, isSpace c = true) (htail : ∀ c ∈ tail, isSpace c = true) :
    trim (front ++ (name ++ tail)) = name := by
  rw [trim, trimStart_append hfront]
  by_cases hne : name = []
  · subst hne
    have hnone : trimStart tail = [] := List.dropWhile_eq_nil_iff.2 htail
    rw [List.nil_append, hnone]
    rfl
  · have hstart : ∀ c ∈ (name ++ tail).head?, isSpace c = false := by
      rw [List.head?_append_of_ne_nil _ hne]
      exact hname.head
    have hend : ∀ h : name ≠ [], ¬ isSpace (name.getLast h) = true := by
      intro h
      have hlast := hname.last _ (List.getLast?_eq_some_getLast h)
      simp [hlast]
    rw [trimStart_of_head hstart, trimEnd, dropEndWhile_append_of_forall htail]
    exact List.rdropWhile_eq_self_iff.2 hend

/-- White space at the end of a text is trimmed with the rest. -/
theorem trim_append_spaces {spaces : Text} (h : ∀ c ∈ spaces, isSpace c = true) (t : Text) :
    trim (t ++ spaces) = trim t := by
  obtain ⟨front, tail, hfront, htail, ht⟩ := exists_trim_append t
  have hback : ∀ c ∈ tail ++ spaces, isSpace c = true := List.forall_mem_append.2 ⟨htail, h⟩
  have hsplit : t ++ spaces = front ++ (trim t ++ (tail ++ spaces)) := by
    conv => lhs; rw [ht]
    simp only [List.append_assoc]
  rw [hsplit, (trimmed_trim t).trim_append hfront hback]

end Text

/-! ## Markers -/

theorem isMarker_iff {c : Char} : isMarker c = true ↔ c = '=' ∨ c = '#' := by
  simp [isMarker]

theorem isSpace_eq_false_of_isMarker {c : Char} (h : isMarker c = true) : isSpace c = false := by
  rcases isMarker_iff.1 h with rfl | rfl <;> decide

theorem dropMarkers_of_head {t : Text} (h : ∀ c ∈ t.head?, isMarker c = false) :
    dropMarkers t = t := by
  cases t with
  | nil => rfl
  | cons c t => simp [dropMarkers, h c rfl]

/-- A run of markers is dropped up to the first other character. -/
theorem dropMarkers_replicate_append {marker : Char} (hmarker : isMarker marker = true) {n : Nat}
    (hn : 1 ≤ n) {t : Text} (h : ∀ c ∈ t.head?, c ≠ marker) :
    dropMarkers (List.replicate n marker ++ t) = t := by
  have hhead : ∀ c ∈ t.head?, (c == marker) = false := by
    intro c hc
    simpa using h c hc
  have hdrop : (List.replicate n marker ++ t).dropWhile (· == marker) = t := by
    rw [(span_append_of_head hhead _).2, List.dropWhile_replicate]
    simp
  obtain ⟨rest, hcons⟩ := List.head?_eq_some_iff.1 (head?_replicate_append (c := marker) hn t)
  rw [hcons] at hdrop ⊢
  rw [dropMarkers, if_pos hmarker, hdrop]

/-- A run of one marker, which ends where `rest` starts. -/
def MarkerRun (markers rest : Text) : Prop :=
  ∃ marker n, (marker = '=' ∨ marker = '#') ∧ 1 ≤ n ∧ markers = List.replicate n marker ∧
    ∀ c ∈ rest.head?, c ≠ marker

/-- What is dropped is a run of one marker, and nothing is dropped from a text that starts with no
    marker. -/
theorem exists_markers_append (t : Text) :
    ∃ markers, t = markers ++ dropMarkers t ∧
      ((markers = [] ∧ ∀ c ∈ t.head?, isMarker c = false) ∨ MarkerRun markers (dropMarkers t)) := by
  cases t with
  | nil => exact ⟨[], rfl, Or.inl ⟨rfl, by simp⟩⟩
  | cons c rest =>
    by_cases hmarker : isMarker c = true
    · have hdrop : dropMarkers (c :: rest) = (c :: rest).dropWhile (· == c) := if_pos hmarker
      rw [hdrop]
      refine ⟨(c :: rest).takeWhile (· == c), List.takeWhile_append_dropWhile.symm, Or.inr
        ⟨c, run c (c :: rest), isMarker_iff.1 hmarker, one_le_run rfl,
          takeWhile_eq_replicate_run c _, ?_⟩⟩
      intro a ha
      simpa using head?_dropWhile_eq_false (· == c) (c :: rest) a ha
    · have hother : ∀ a ∈ (c :: rest).head?, isMarker a = false := by simpa using hmarker
      refine ⟨[], ?_, Or.inl ⟨rfl, hother⟩⟩
      rw [dropMarkers_of_head hother, List.nil_append]

/-! ## Taking a heading apart -/

/-- A way to take a heading apart: white space, a run of one marker, white space, the name, and white
    space. -/
structure TitleSplit (heading name : Text) where
  indent : Text
  markers : Text
  gap : Text
  tail : Text
  eq_append : heading = indent ++ (markers ++ (gap ++ (name ++ tail)))
  indent_spaces : ∀ c ∈ indent, isSpace c = true
  gap_spaces : ∀ c ∈ gap, isSpace c = true
  tail_spaces : ∀ c ∈ tail, isSpace c = true
  markers_run : markers = [] ∨ MarkerRun markers (gap ++ (name ++ tail))
  /-- The markers may be left out only if the first character that is no white space is none. -/
  of_no_markers : markers = [] → ∀ c ∈ heading.find? (fun c => !isSpace c), c ≠ '=' ∧ c ≠ '#'
  name_trimmed : Trimmed name

theorem find?_not_isSpace (t : Text) : t.find? (fun c => !isSpace c) = (trimStart t).head? :=
  List.find?_not_eq_head?_dropWhile isSpace t

theorem ne_marker_iff {c : Char} : (c ≠ '=' ∧ c ≠ '#') ↔ isMarker c = false := by
  simp [isMarker]

/-- However a heading is taken apart, its title is the same. -/
theorem TitleSplit.name_eq {heading name : Text} (s : TitleSplit heading name) :
    name = title heading := by
  have hname : trim (s.gap ++ (name ++ s.tail)) = name :=
    s.name_trimmed.trim_append s.gap_spaces s.tail_spaces
  have hstart : trimStart heading = trimStart (s.markers ++ (s.gap ++ (name ++ s.tail))) := by
    conv => lhs; rw [s.eq_append]
    exact trimStart_append s.indent_spaces _
  rcases s.markers_run with hnone | ⟨marker, n, hmarker, hn, hrun, hrest⟩
  · have hother : ∀ c ∈ (trimStart heading).head?, isMarker c = false := by
      intro c hc
      rw [← find?_not_isSpace] at hc
      exact ne_marker_iff.1 (s.of_no_markers hnone c hc)
    rw [title, dropMarkers_of_head hother, hstart, hnone, List.nil_append, trim_trimStart, hname]
  · have hisMarker := isMarker_iff.2 hmarker
    have hhead : ∀ c ∈ (List.replicate n marker ++ (s.gap ++ (name ++ s.tail))).head?,
        isSpace c = false := by
      rw [head?_replicate_append hn]
      simpa using isSpace_eq_false_of_isMarker hisMarker
    rw [title, hstart, hrun, trimStart_of_head hhead, dropMarkers_replicate_append hisMarker hn hrest,
      hname]

/-- The steps that find the title take a heading apart. -/
theorem exists_titleSplit (heading : Text) : Nonempty (TitleSplit heading (title heading)) := by
  obtain ⟨indent, hindent, hheading⟩ := exists_trimStart_append heading
  obtain ⟨markers, hmarkers, hrun⟩ := exists_markers_append (trimStart heading)
  obtain ⟨gap, tail, hgap, htail, hbody⟩ := exists_trim_append (dropMarkers (trimStart heading))
  refine ⟨⟨indent, markers, gap, tail, ?_, hindent, hgap, htail, ?_, ?_, trimmed_trim _⟩⟩
  · calc heading = indent ++ trimStart heading := hheading
      _ = indent ++ (markers ++ dropMarkers (trimStart heading)) := by rw [← hmarkers]
      _ = indent ++ (markers ++ (gap ++ (title heading ++ tail))) := by rw [title, ← hbody]
  · rw [title, ← hbody]
    exact hrun.imp_left And.left
  · intro hnone c hc
    rw [find?_not_isSpace] at hc
    rcases hrun with ⟨-, hother⟩ | ⟨marker, n, -, hn, hreplicate, -⟩
    · exact ne_marker_iff.2 (hother c hc)
    · rw [hnone, eq_comm, List.replicate_eq_nil_iff] at hreplicate
      omega

theorem mem_of_mem_title {c : Char} {heading : Text} (h : c ∈ title heading) : c ∈ heading := by
  obtain ⟨split⟩ := exists_titleSplit heading
  rw [split.eq_append]
  simp [h]

/-- **What a title is.** For every text and every name: the text can be taken apart into white space,
    a run of one marker, white space, the name and white space if and only if the name is the title
    of the text. The run is as long as it can be, and is left out only if the first character that
    is no white space is no marker; the name neither starts nor ends with white space. So there is
    always such a name, and only one. -/
theorem title_decomposes (heading name : Text) :
    Nonempty (TitleSplit heading name) ↔ name = title heading := by
  constructor
  · rintro ⟨split⟩
    exact split.name_eq
  · rintro rfl
    exact exists_titleSplit heading

/-- Only the first run of markers is left out, and the other marker ends it. -/
example : title [' ', '=', '=', '#', '=', ' ', 'a', '\r'] = ['#', '=', ' ', 'a'] := by decide

end DocOutline
