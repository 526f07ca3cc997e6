set_option autoImplicit false

/-! # Text and byte offsets

A document is the list of its characters. Every offset in this library counts bytes of the
document's UTF-8 form, so a character takes one to four positions and only some offsets lie between
two characters. This file measures a text in bytes, cuts it at byte offsets, and collects the few
list operations on runs of characters that the rest is written with. -/

namespace DocOutline

/-- A document, or a piece of one. -/
abbrev Text := List Char

namespace Text

/-! ## Bytes -/

/-- Number of bytes of the UTF-8 form. -/
def byteLength (t : Text) : Nat := t.foldr (fun c n => c.utf8Size + n) 0

@[simp] theorem byteLength_nil : byteLength [] = 0 := rfl

@[simp] theorem byteLength_cons (c : Char) (t : Text) :
    byteLength (c :: t) = c.utf8Size + byteLength t := rfl

@[simp] theorem byteLength_append (s t : Text) :
    byteLength (s ++ t) = byteLength s + byteLength t := by
  induction s with
  | nil => simp
  | cons c s ih => rw [List.cons_append, byteLength_cons, byteLength_cons, ih, Nat.add_assoc]

/-- The text from byte offset `n` on; nothing if `n` lies inside a character or past the end. -/
def dropBytes? : Text → Nat → Option Text
  | t, 0 => some t
  | [], _ + 1 => none
  | c :: t, n + 1 => if c.utf8Size ≤ n + 1 then dropBytes? t (n + 1 - c.utf8Size) else none

/-- The first `n` bytes; nothing if `n` lies inside a character or past the end. -/
def takeBytes? : Text → Nat → Option Text
  | _, 0 => some []
  | [], _ + 1 => none
  | c :: t, n + 1 =>
    if c.utf8Size ≤ n + 1 then (takeBytes? t (n + 1 - c.utf8Size)).map (c :: ·) else none

/-- The bytes from `start` up to `stop`; nothing unless `start ≤ stop` and both lie on character
    boundaries of the text. -/
def slice? (t : Text) (start stop : Nat) : Option Text :=
  if start ≤ stop then (dropBytes? t start).bind (takeBytes? · (stop - start)) else none

/-! ## Runs of characters -/

/-- The text without its longest tail of characters that satisfy `p`. -/
def dropEndWhile (p : Char → Bool) (t : Text) : Text := (t.reverse.dropWhile p).reverse

/-- Length of the run of `c` at the start. -/
def run (c : Char) (t : Text) : Nat := (t.takeWhile (· == c)).length

/-- Is the code point of `c` in one of the ranges, each given by its first and last member? -/
def inRanges (ranges : List (Nat × Nat)) (c : Char) : Bool :=
  ranges.any fun r => r.1 ≤ c.toNat && c.toNat ≤ r.2

/-- Puts `c` in front of the text that is split into `parts` at the separator. -/
def consPart (separator c : Char) (parts : List Text) : List Text :=
  if c = separator then [] :: parts
  else match parts with
    | [] => [[c]]
    | part :: more => (c :: part) :: more

/-- The parts of a text between its separators; there is always one more part than separators. -/
def splitAt (separator : Char) (t : Text) : List Text := t.foldr (consPart separator) [[]]

/-! ## Numbers -/

/-- Decimal digits of a number, without leading zeros. -/
def ofNat (n : Nat) : Text := Nat.toDigits 10 n

/-- The number written in decimal digits and nothing else; there is at least one. -/
def toNat? (t : Text) : Option Nat :=
  if t.isEmpty then none
  else t.foldlM (fun n c => if c.isDigit then some (n * 10 + (c.toNat - '0'.toNat)) else none) 0

/-- A number below `2 ^ 64` in decimal digits, which a plus sign may precede. -/
def toWord? (t : Text) : Option Nat :=
  let digits := match t with
    | '+' :: rest => rest
    | _ => t
  (toNat? digits).filter (· < Nat.pow 2 64)

end Text

end DocOutline
