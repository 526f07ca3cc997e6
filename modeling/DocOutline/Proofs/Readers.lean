import DocOutline.Proofs.Bytes
import DocOutline.Toml.Statement
import Mathlib.Data.List.TakeWhile

set_option autoImplicit false

/-! # Reading back what was written

To say that a written form keeps everything that went into it, one reads it back. The readers here
take the parts that written forms are made of, fixed words and numbers. Each has one lemma: it takes
what was written, whatever comes after, and gives back what that was made from. A fixed word ends
where it ends; a number ends where no digit follows. -/

namespace DocOutline

/-- What can be read back is written in its own way. -/
theorem Text.written_inj {α : Type} {write : α → Text} {read : Text → Option α}
    (h : ∀ x, read (write x) = some x) {x y : α} : write x = write y ↔ x = y := by
  constructor
  · intro hwritten
    have hread := h x
    rw [hwritten, h y] at hread
    exact (Option.some.inj hread).symm
  · intro hsame
    rw [hsame]

/-! ## Numbers -/

namespace Text

/-- Digits are read one after the other, each behind what was read before it. -/
theorem foldlM_digits {t : Text} (h : ∀ c ∈ t, c.isDigit = true) (n : Nat) :
    t.foldlM (fun n c => if c.isDigit then some (n * 10 + (c.toNat - '0'.toNat)) else none) n
      = some (Nat.ofDigitChars 10 t n) := by
  induction t generalizing n with
  | nil => rfl
  | cons c t ih =>
    obtain ⟨hc, ht⟩ := List.forall_mem_cons.1 h
    simp only [List.foldlM_cons, hc, if_true, Option.bind_eq_bind, Option.bind_some]
    rw [ih ht, Nat.mul_comm n 10]
    rfl

theorem toNat?_ofNat (n : Nat) : toNat? (ofNat n) = some n := by
  have hne : (ofNat n).isEmpty = false := by
    rw [List.isEmpty_eq_false_iff]
    exact Nat.toDigits_ne_nil
  have hdigits : ∀ c ∈ ofNat n, c.isDigit = true := fun c hc => isDigit_of_mem_ofNat hc
  rw [toNat?, hne, foldlM_digits hdigits]
  exact congrArg some Nat.ofDigitChars_ten_toDigits

end Text

/-! ## Readers -/

namespace Toml.Reader

open Text

@[simp] theorem run_char (c : Char) (t : Text) : (char c).run (c :: t) = some ((), t) := by
  simp [char, peek, skip]

@[simp] theorem run_peek (t : Text) : peek.run t = some (t.head?, t) := by
  simp [peek]

@[simp] theorem run_skip (n : Nat) (t : Text) : (skip n).run t = some ((), t.drop n) := by
  simp [skip]

theorem run_takeWhile {p : Char → Bool} {taken rest : Text} (htaken : ∀ c ∈ taken, p c = true)
    (hrest : ∀ c ∈ rest.head?, p c = false) :
    (takeWhile p).run (taken ++ rest) = some (taken, rest) := by
  obtain ⟨htake, hdrop⟩ := span_append_of_head hrest taken
  have hall : taken.takeWhile p = taken := List.takeWhile_eq_self_iff.2 htaken
  have hnone : taken.dropWhile p = [] := List.dropWhile_eq_nil_iff.2 htaken
  simp [takeWhile, htake, hdrop, hall, hnone]

/-- Takes the characters of a word. -/
def word : Text → Reader Unit
  | [] => pure ()
  | c :: w => do
    char c
    word w

@[simp] theorem run_word (w t : Text) : (word w).run (w ++ t) = some ((), t) := by
  induction w with
  | nil => rfl
  | cons c w ih => simp [word, ih]

/-- Takes a number in decimal digits. -/
def number : Reader Nat := do
  let digits ← takeWhile Char.isDigit
  StateT.lift (toNat? digits)

@[simp] theorem run_number {c : Char} (hc : c.isDigit = false) (n : Nat) (t : Text) :
    number.run (ofNat n ++ c :: t) = some (n, c :: t) := by
  have hdigits : (takeWhile Char.isDigit).run (ofNat n ++ c :: t) = some (ofNat n, c :: t) :=
    run_takeWhile (fun _ => isDigit_of_mem_ofNat) (by simpa using hc)
  simp [number, hdigits, toNat?_ofNat]

end Toml.Reader

end DocOutline
