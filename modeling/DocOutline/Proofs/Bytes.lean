import DocOutline.Text.Line
import Mathlib.Data.List.DropRight

set_option autoImplicit false

/-! # Measuring and cutting texts

Offsets count bytes, texts are lists of characters. The bridge between the two is concatenation:
cutting `a ++ b ++ c` at the byte lengths of `a` and of `a ++ b` gives `b` (`Text.slice?_append`).
Everything later on that concerns offsets is stated about texts that are put together from parts,
so that cutting at an offset is never computed. The last section is about numbers, which are written
in decimal digits and are read back from the end of a text. -/

namespace DocOutline.Text

/-! ## Lengths -/

theorem byteLength_pos {t : Text} (h : t ≠ []) : 0 < byteLength t := by
  cases t with
  | nil => exact absurd rfl h
  | cons c t =>
    have := c.utf8Size_pos
    rw [byteLength_cons]
    omega

/-- Where a list of lines ends that starts at byte `pos`, counted line by line. -/
theorem byteLength_flatten_cons (pos : Nat) (piece : Text) (lines : List Text) :
    pos + byteLength (piece :: lines).flatten
      = pos + byteLength piece + byteLength lines.flatten := by
  rw [List.flatten_cons, byteLength_append, Nat.add_assoc]

theorem byteLength_flatten_append_cons (pos : Nat) (skipped : List Text) (closing : Text)
    (lines : List Text) :
    pos + byteLength (skipped ++ closing :: lines).flatten
      = pos + byteLength skipped.flatten + byteLength closing + byteLength lines.flatten := by
  rw [List.flatten_append, List.flatten_cons, byteLength_append, byteLength_append]
  omega

/-! ## Cuts -/

/-- The offset `n` lies between two characters of the text, or at one of its ends. -/
def IsBoundary (t : Text) (n : Nat) : Prop := ∃ front rest, t = front ++ rest ∧ byteLength front = n

theorem dropBytes?_append (s t : Text) : dropBytes? (s ++ t) (byteLength s) = some t := by
  induction s with
  | nil => simp [dropBytes?]
  | cons c s ih =>
    have hpos := c.utf8Size_pos
    obtain ⟨n, hn⟩ : ∃ n, c.utf8Size + byteLength s = n + 1 :=
      ⟨c.utf8Size + byteLength s - 1, by omega⟩
    have hrest : n + 1 - c.utf8Size = byteLength s := by omega
    rw [byteLength_cons, hn, List.cons_append, dropBytes?, if_pos (by omega), hrest, ih]

theorem takeBytes?_append (s t : Text) : takeBytes? (s ++ t) (byteLength s) = some s := by
  induction s with
  | nil => simp [takeBytes?]
  | cons c s ih =>
    have hpos := c.utf8Size_pos
    obtain ⟨n, hn⟩ : ∃ n, c.utf8Size + byteLength s = n + 1 :=
      ⟨c.utf8Size + byteLength s - 1, by omega⟩
    have hrest : n + 1 - c.utf8Size = byteLength s := by omega
    rw [byteLength_cons, hn, List.cons_append, takeBytes?, if_pos (by omega), hrest, ih,
      Option.map_some]

/-- Cutting out the middle of three parts. -/
theorem slice?_append (a b c : Text) :
    slice? (a ++ (b ++ c)) (byteLength a) (byteLength a + byteLength b) = some b := by
  rw [slice?, if_pos (by omega), dropBytes?_append, Option.bind_some, Nat.add_sub_cancel_left,
    takeBytes?_append]

/-! ## Runs and trailing characters -/

/-- A first element that fails the condition stops the search for it at the seam of two lists. -/
theorem span_append_of_head {α : Type} {p : α → Bool} {back : List α}
    (h : ∀ a ∈ back.head?, p a = false) (front : List α) :
    (front ++ back).takeWhile p = front.takeWhile p ∧
      (front ++ back).dropWhile p = front.dropWhile p ++ back := by
  induction front with
  | nil =>
    cases back with
    | nil => exact ⟨rfl, rfl⟩
    | cons a back =>
      have ha : ¬ p a = true := by simpa using h a rfl
      exact ⟨List.takeWhile_cons_of_neg ha, List.dropWhile_cons_of_neg ha⟩
  | cons a front ih =>
    rw [List.cons_append]
    by_cases ha : p a = true
    · rw [List.takeWhile_cons_of_pos ha, List.takeWhile_cons_of_pos ha,
        List.dropWhile_cons_of_pos ha, List.dropWhile_cons_of_pos ha, ih.1]
      exact ⟨rfl, ih.2⟩
    · rw [List.takeWhile_cons_of_neg ha, List.takeWhile_cons_of_neg ha,
        List.dropWhile_cons_of_neg ha, List.dropWhile_cons_of_neg ha]
      exact ⟨rfl, rfl⟩

/-- What is dropped from the end of a text are characters that satisfy the condition. -/
theorem exists_dropEndWhile_append (p : Char → Bool) (t : Text) :
    ∃ tail, t = dropEndWhile p t ++ tail ∧ ∀ c ∈ tail, p c = true := by
  refine ⟨t.rtakeWhile p, List.rdropWhile_append_rtakeWhile.symm, ?_⟩
  intro c hc
  exact List.mem_rtakeWhile_imp hc

/-- A character that fails the condition stops the search for the end of a text. -/
theorem dropEndWhile_append_cons {p : Char → Bool} {c : Char} (hc : p c = false) (s t : Text) :
    dropEndWhile p (s ++ c :: t) = s ++ c :: dropEndWhile p t := by
  have hhead : ∀ a ∈ (c :: s.reverse).head?, p a = false := by simpa using hc
  have hreverse : (s ++ c :: t).reverse = t.reverse ++ c :: s.reverse := by simp
  rw [dropEndWhile, hreverse, (span_append_of_head hhead _).2, dropEndWhile]
  simp

/-- Elements at the end that satisfy the condition are dropped with those before them. -/
theorem rdropWhile_append_of_forall {α : Type} {p : α → Bool} {tail : List α}
    (h : ∀ a ∈ tail, p a = true) (l : List α) : (l ++ tail).rdropWhile p = l.rdropWhile p := by
  have hreverse : ∀ a ∈ tail.reverse, p a = true := fun a ha => h a (List.mem_reverse.1 ha)
  rw [List.rdropWhile, List.reverse_append, List.dropWhile_append_of_pos hreverse, List.rdropWhile]

theorem dropEndWhile_append_of_forall {p : Char → Bool} {tail : Text}
    (h : ∀ c ∈ tail, p c = true) (t : Text) : dropEndWhile p (t ++ tail) = dropEndWhile p t :=
  rdropWhile_append_of_forall h t

/-- A piece is the content of its line and the line break after it. -/
theorem exists_lineContent_append (piece : Text) :
    ∃ ending, piece = lineContent piece ++ ending := by
  obtain ⟨ending, h, -⟩ := exists_dropEndWhile_append isLineBreak piece
  exact ⟨ending, h⟩

theorem ne_nil_of_lineContent_ne_nil {piece : Text} (h : lineContent piece ≠ []) : piece ≠ [] := by
  rintro rfl
  exact h rfl

theorem byteLength_lineContent_le (piece : Text) :
    byteLength (lineContent piece) ≤ byteLength piece := by
  obtain ⟨ending, h⟩ := exists_lineContent_append piece
  have hlen := congrArg byteLength h
  rw [byteLength_append] at hlen
  omega

/-- Every line has at least one character, if only its line feed. -/
theorem ne_nil_of_mem_pieces (t : Text) : ∀ piece ∈ pieces t, piece ≠ [] := by
  induction t with
  | nil => simp [pieces]
  | cons c t ih =>
    show ∀ piece ∈ consPiece c (pieces t), piece ≠ []
    unfold consPiece
    split
    · exact List.forall_mem_cons.2 ⟨by simp, ih⟩
    · split
      · simp
      · rename_i first more hpieces
        rw [hpieces] at ih
        exact List.forall_mem_cons.2 ⟨by simp, (List.forall_mem_cons.1 ih).2⟩

/-! ## Numbers -/

theorem isDigit_of_mem_ofNat {n : Nat} {c : Char} (h : c ∈ ofNat n) : c.isDigit = true :=
  Nat.isDigit_of_mem_toDigits (by omega) (by omega) h

theorem newline_notMem_ofNat (n : Nat) : '\n' ∉ ofNat n := by
  intro h
  exact absurd (isDigit_of_mem_ofNat h) (by decide)

theorem ofNat_injective {m n : Nat} (h : ofNat m = ofNat n) : m = n := by
  calc m = Nat.ofDigitChars 10 (ofNat m) 0 := Nat.ofDigitChars_ten_toDigits.symm
    _ = Nat.ofDigitChars 10 (ofNat n) 0 := by rw [h]
    _ = n := Nat.ofDigitChars_ten_toDigits

/-- A number at the end of a text can be read back if no digit stands before it, and with it what
    comes before the label in front of it. -/
theorem append_label_ofNat_inj {label : Text} {c : Char} (hlabel : label.getLast? = some c)
    (hc : c.isDigit = false) {s t : Text} {m n : Nat}
    (h : s ++ label ++ ofNat m = t ++ label ++ ofNat n) : s = t ∧ m = n := by
  obtain ⟨front, rfl⟩ := List.getLast?_eq_some_iff.1 hlabel
  have hdigits : ∀ k d, d ∈ ofNat k → d.isDigit = true := fun _ _ hd => isDigit_of_mem_ofNat hd
  have hdrop : ∀ u k, dropEndWhile Char.isDigit (u ++ (front ++ [c]) ++ ofNat k)
      = u ++ (front ++ [c]) := by
    intro u k
    have hlast := dropEndWhile_append_cons (p := Char.isDigit) hc (u ++ front) []
    rw [dropEndWhile_append_of_forall (hdigits k)]
    simpa [dropEndWhile] using hlast
  have hfront := congrArg (dropEndWhile Char.isDigit) h
  rw [hdrop, hdrop] at hfront
  obtain rfl := List.append_cancel_right hfront
  exact ⟨rfl, ofNat_injective (List.append_cancel_left h)⟩

end DocOutline.Text
