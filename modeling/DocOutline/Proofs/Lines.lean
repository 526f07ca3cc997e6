import DocOutline.Proofs.Bytes

set_option autoImplicit false

/-! # Cutting a text between lines

A text is cut into pieces from its end, character by character. This file says how the pieces of a
text relate to those of its parts, if the text is cut where a line ends: the pieces of the parts
are the pieces of the whole (`Text.pieces_append`), and any cut between two pieces is of this kind
(`Text.pieces_flatten_of_append`, `Text.getLast?_of_pieces_append`). -/

namespace DocOutline.Text

theorem pieces_cons (c : Char) (t : Text) : pieces (c :: t) = consPiece c (pieces t) := rfl

theorem pieces_eq_nil_iff (t : Text) : pieces t = [] ↔ t = [] := by
  constructor
  · intro h
    rw [← flatten_pieces t, h, List.flatten_nil]
  · rintro rfl
    rfl

theorem consPiece_newline (rest : List Text) : consPiece '\n' rest = ['\n'] :: rest := rfl

theorem consPiece_nil {c : Char} (h : c ≠ '\n') : consPiece c [] = [[c]] := by
  unfold consPiece
  rw [if_neg h]

theorem consPiece_cons {c : Char} (h : c ≠ '\n') (piece : Text) (more : List Text) :
    consPiece c (piece :: more) = (c :: piece) :: more := by
  unfold consPiece
  rw [if_neg h]

/-- A character in front of some pieces changes only the first of them. -/
theorem consPiece_append (c : Char) {front : List Text} (h : front ≠ []) (back : List Text) :
    consPiece c (front ++ back) = consPiece c front ++ back := by
  cases front with
  | nil => exact absurd rfl h
  | cons piece more =>
    unfold consPiece
    split <;> rfl

/-- If the first text ends with a line feed, no line reaches across into the second. -/
theorem pieces_append {a : Text} (ha : a.getLast? = some '\n') (b : Text) :
    pieces (a ++ b) = pieces a ++ pieces b := by
  induction a with
  | nil => simp at ha
  | cons c a ih =>
    rw [List.cons_append, pieces_cons, pieces_cons]
    cases a with
    | nil =>
      rw [List.getLast?_singleton, Option.some.injEq] at ha
      subst ha
      rfl
    | cons d a =>
      rw [List.getLast?_cons_cons] at ha
      rw [ih ha, consPiece_append c (by simp [pieces_eq_nil_iff])]

/-- All lines of a text that ends with a line feed do. -/
theorem getLast?_of_mem_pieces {t : Text} (ht : t.getLast? = some '\n') :
    ∀ piece ∈ pieces t, piece.getLast? = some '\n' := by
  induction t with
  | nil => simp at ht
  | cons c t ih =>
    rw [pieces_cons]
    cases t with
    | nil =>
      rw [List.getLast?_singleton, Option.some.injEq] at ht
      subst ht
      simp [pieces, consPiece]
    | cons d t =>
      rw [List.getLast?_cons_cons] at ht
      have hpieces := ih ht
      by_cases hc : c = '\n'
      · subst hc
        exact List.forall_mem_cons.2 ⟨rfl, hpieces⟩
      · cases hcut : pieces (d :: t) with
        | nil => exact absurd ((pieces_eq_nil_iff _).1 hcut) (by simp)
        | cons piece more =>
          rw [hcut] at hpieces
          obtain ⟨hpiece, hmore⟩ := List.forall_mem_cons.1 hpieces
          rw [consPiece_cons hc]
          refine List.forall_mem_cons.2 ⟨?_, hmore⟩
          rw [List.getLast?_cons, hpiece]
          rfl

/-- A line without line feeds is one piece together with the line feed after it. -/
theorem pieces_line {line : Text} (h : '\n' ∉ line) :
    pieces (line ++ ['\n']) = [line ++ ['\n']] := by
  induction line with
  | nil => rfl
  | cons c line ih =>
    obtain ⟨hc, hline⟩ := List.ne_and_not_mem_of_not_mem_cons h
    rw [List.cons_append, pieces_cons, ih hline, consPiece_cons (Ne.symm hc)]

/-- What is written line by line is cut into the same lines again. -/
theorem pieces_flatMap {α : Type} {write : α → Text} {items : List α}
    (h : ∀ a ∈ items, ∃ line, '\n' ∉ line ∧ write a = line ++ ['\n']) :
    pieces (items.flatMap write) = items.map write := by
  induction items with
  | nil => rfl
  | cons a items ih =>
    obtain ⟨⟨line, hline, hwrite⟩, hitems⟩ := List.forall_mem_cons.1 h
    have hlast : (write a).getLast? = some '\n' := by rw [hwrite, List.getLast?_concat]
    have hfirst : pieces (write a) = [write a] := by rw [hwrite, pieces_line hline]
    rw [List.flatMap_cons, pieces_append hlast, hfirst, ih hitems, List.map_cons,
      List.singleton_append]

/-- If the pieces of a text are split into two lists, these are the pieces of the two parts. -/
theorem pieces_flatten_of_append {t : Text} {front back : List Text}
    (h : pieces t = front ++ back) :
    pieces front.flatten = front ∧ pieces back.flatten = back := by
  induction t generalizing front with
  | nil =>
    obtain ⟨rfl, rfl⟩ := List.append_eq_nil_iff.1 h.symm
    exact ⟨rfl, rfl⟩
  | cons c t ih =>
    cases front with
    | nil =>
      rw [List.nil_append] at h
      rw [← h, flatten_pieces]
      exact ⟨rfl, rfl⟩
    | cons first front =>
      rw [pieces_cons, List.cons_append] at h
      by_cases hc : c = '\n'
      · subst hc
        rw [consPiece_newline] at h
        obtain ⟨rfl, hrest⟩ := List.cons.inj h
        obtain ⟨hfront, hback⟩ := ih hrest
        refine ⟨?_, hback⟩
        rw [List.flatten_cons, List.singleton_append, pieces_cons, hfront, consPiece_newline]
      · cases hcut : pieces t with
        | nil =>
          rw [hcut, consPiece_nil hc] at h
          obtain ⟨rfl, hnil⟩ := List.cons.inj h
          obtain ⟨rfl, rfl⟩ := List.append_eq_nil_iff.1 hnil.symm
          exact ⟨consPiece_nil hc, rfl⟩
        | cons piece more =>
          -- the first piece is one character longer than that of the shorter text
          rw [hcut, consPiece_cons hc] at h
          obtain ⟨rfl, rfl⟩ := List.cons.inj h
          obtain ⟨hfront, hback⟩ := @ih (piece :: front) hcut
          refine ⟨?_, hback⟩
          rw [List.flatten_cons] at hfront
          rw [List.flatten_cons, List.cons_append, pieces_cons, hfront, consPiece_cons hc]

/-- Only the last piece of a text may lack its line feed. -/
theorem getLast?_of_pieces_append {t : Text} {front back : List Text}
    (h : pieces t = front ++ back) (hback : back ≠ []) :
    ∀ piece ∈ front, piece.getLast? = some '\n' := by
  induction t generalizing front with
  | nil =>
    obtain ⟨rfl, -⟩ := List.append_eq_nil_iff.1 h.symm
    simp
  | cons c t ih =>
    cases front with
    | nil => simp
    | cons first front =>
      rw [pieces_cons, List.cons_append] at h
      by_cases hc : c = '\n'
      · subst hc
        rw [consPiece_newline] at h
        obtain ⟨rfl, hrest⟩ := List.cons.inj h
        exact List.forall_mem_cons.2 ⟨rfl, ih hrest⟩
      · cases hcut : pieces t with
        | nil =>
          rw [hcut, consPiece_nil hc] at h
          have hnil := (List.cons.inj h).2
          exact absurd (List.append_eq_nil_iff.1 hnil.symm).2 hback
        | cons piece more =>
          rw [hcut, consPiece_cons hc] at h
          obtain ⟨rfl, rfl⟩ := List.cons.inj h
          obtain ⟨hpiece, hfront⟩ := List.forall_mem_cons.1 (@ih (piece :: front) hcut)
          refine List.forall_mem_cons.2 ⟨?_, hfront⟩
          rw [List.getLast?_cons, hpiece]
          rfl

/-! ## The content of a line -/

/-- The line feed at the end of a piece does not belong to the content. -/
theorem lineContent_append_newline (line : Text) :
    lineContent (line ++ ['\n']) = lineContent line := by
  simp [lineContent, dropEndWhile, isLineBreak]

theorem byteLength_lineContent_lt {piece : Text} (h : piece.getLast? = some '\n') :
    byteLength (lineContent piece) < byteLength piece := by
  obtain ⟨line, rfl⟩ := List.getLast?_eq_some_iff.1 h
  have hle := byteLength_lineContent_le line
  have hbreak := byteLength_pos (t := ['\n']) (by simp)
  rw [lineContent_append_newline, byteLength_append]
  omega

end DocOutline.Text
