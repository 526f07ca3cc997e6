import DocOutline.Text.Basic

set_option autoImplicit false

/-! # TOML numbers

Integers are decimal with an optional sign, or hexadecimal, octal or binary without one, and have to
fit into 64 bits. Floats are decimal with a fraction or an exponent, or one of the words `inf` and
`nan`. An underscore may stand between two digits. Decimal integers, also the one a float starts
with, have no leading zeros. -/

namespace DocOutline.Toml

/-! ## Digits -/

/-- The value of a digit of a base up to 16. -/
def digit? (base : Nat) (c : Char) : Option Nat :=
  let n :=
    if '0' ≤ c ∧ c ≤ '9' then c.toNat - '0'.toNat
    else if 'a' ≤ c ∧ c ≤ 'f' then c.toNat - 'a'.toNat + 10
    else if 'A' ≤ c ∧ c ≤ 'F' then c.toNat - 'A'.toNat + 10
    else base
  if n < base then some n else none

def isDigit (c : Char) : Bool := (digit? 10 c).isSome

/-- The number that starts with the digits of `acc` and goes on with these. -/
def digitsFrom (base acc : Nat) : Text → Option Nat
  | [] => some acc
  | c :: d :: rest =>
    if c = '_' then (digit? base d).bind fun n => digitsFrom base (acc * base + n) rest
    else (digit? base c).bind fun n => digitsFrom base (acc * base + n) (d :: rest)
  | [c] => (digit? base c).map (acc * base + ·)

/-- The number written in digits of a base, with underscores between digits. -/
def digits? (base : Nat) : Text → Option Nat
  | [] => none
  | c :: rest => (digit? base c).bind fun n => digitsFrom base n rest

/-- A decimal number without leading zeros. -/
def decimal? (t : Text) : Option Nat :=
  match t with
  | '0' :: _ :: _ => none
  | _ => digits? 10 t

/-! ## Integers -/

/-- The integer that a literal stands for, whatever its size. -/
def unboundedInteger? : Text → Option Int
  | '+' :: t => (decimal? t).map Int.ofNat
  | '-' :: t => (decimal? t).map fun n => -Int.ofNat n
  | '0' :: 'x' :: t => (digits? 16 t).map Int.ofNat
  | '0' :: 'o' :: t => (digits? 8 t).map Int.ofNat
  | '0' :: 'b' :: t => (digits? 2 t).map Int.ofNat
  | t => (decimal? t).map Int.ofNat

/-- The integer that a literal stands for, if it fits into 64 bits. -/
def integer? (t : Text) : Option Int :=
  (unboundedInteger? t).filter fun n => -Int.pow 2 63 ≤ n ∧ n < Int.pow 2 63

/-! ## Floats -/

/-- The least number that is too large for a double, for which it is nearer to the next power of two
    than to the greatest double, or as near. -/
def doubleLimit : Nat := (Nat.pow 2 54 - 1) * Nat.pow 2 970

/-- Is `m * 10 ^ e` too large for a double? Numbers that differ from the limit by orders of magnitude
    are told by their number of digits alone. -/
def exceedsDouble (m : Nat) (e : Int) : Bool :=
  if m = 0 then false
  else
    let magnitude := Int.ofNat (Nat.toDigits 10 m).length + e
    if 310 < magnitude then true
    else if magnitude < 300 then false
    else if 0 ≤ e then doubleLimit ≤ m * Nat.pow 10 e.toNat
    else doubleLimit * Nat.pow 10 (-e).toNat ≤ m

/-- A text after its sign, with whether that is a minus. -/
def splitSign : Text → Bool × Text
  | '+' :: t => (false, t)
  | '-' :: t => (true, t)
  | t => (false, t)

/-- The exponent of a float: 0 if there is none. -/
def exponent? (t : Text) : Option Int :=
  match t with
  | [] => some 0
  | c :: rest =>
    if c = 'e' ∨ c = 'E' then
      let (negative, digits) := splitSign rest
      (digits? 10 digits).map fun n => if negative then -Int.ofNat n else Int.ofNat n
    else none

/-- Mantissa and decimal exponent of a float without its sign. -/
def scientific? (t : Text) : Option (Nat × Int) := do
  let isBody := fun c => isDigit c || c == '_'
  let whole ← decimal? (t.takeWhile isBody)
  match t.dropWhile isBody with
  | [] => none
  | '.' :: rest =>
    let written := rest.takeWhile isBody
    let fraction ← digits? 10 written
    let places := (written.filter isDigit).length
    let e ← exponent? (rest.dropWhile isBody)
    return (whole * Nat.pow 10 places + fraction, e - Int.ofNat places)
  | rest => return (whole, ← exponent? rest)

/-- Is this literal a float? One that would have to be read as positive infinity is none, unless it
    is written so. -/
def isFloat (t : Text) : Bool :=
  let (negative, body) := splitSign t
  if body = "inf".toList ∨ body = "nan".toList then true
  else match scientific? body with
    | none => false
    | some (m, e) => negative || !exceedsDouble m e

end DocOutline.Toml
