import DocOutline.Toml.Number

set_option autoImplicit false

/-! # TOML dates and times

A date, a time, or both; the time of a date may have an offset. Days are checked against the month
and the year, and a minute may have a leap second. -/

namespace DocOutline.Toml

/-- The number of two digits. -/
def twoDigits? (a b : Char) : Option Nat := do
  return (← digit? 10 a) * 10 + (← digit? 10 b)

def isLeapYear (year : Nat) : Bool := year % 4 == 0 && (year % 100 != 0 || year % 400 == 0)

def daysInMonth (year month : Nat) : Nat :=
  if month = 2 then (if isLeapYear year then 29 else 28)
  else if month = 4 ∨ month = 6 ∨ month = 9 ∨ month = 11 then 30
  else 31

/-- What follows the date that a text starts with. -/
def afterDate? : Text → Option Text
  | a :: b :: c :: d :: '-' :: m :: n :: '-' :: x :: y :: rest => do
    let year := (← twoDigits? a b) * 100 + (← twoDigits? c d)
    let month ← twoDigits? m n
    let day ← twoDigits? x y
    if 1 ≤ month ∧ month ≤ 12 ∧ 1 ≤ day ∧ day ≤ daysInMonth year month then some rest else none
  | _ => none

/-- What follows the time that a text starts with. -/
def afterTime? : Text → Option Text
  | a :: b :: ':' :: c :: d :: ':' :: e :: f :: rest => do
    let hour ← twoDigits? a b
    let minute ← twoDigits? c d
    let second ← twoDigits? e f
    if hour ≤ 23 ∧ minute ≤ 59 ∧ second ≤ 60 then
      match rest with
      | '.' :: digit :: more => if isDigit digit then some (more.dropWhile isDigit) else none
      | _ => some rest
    else none
  | _ => none

/-- The offset after the time of a date, which may be missing. -/
def isOffset : Text → Bool
  | [] => true
  | [c] => c == 'Z' || c == 'z'
  | [sign, a, b, ':', c, d] =>
    (sign == '+' || sign == '-') && (twoDigits? a b).any (· ≤ 23) && (twoDigits? c d).any (· ≤ 59)
  | _ => false

/-- A time that may have an offset, as it follows a date. -/
def isTimeOfDate (t : Text) : Bool := (afterTime? t).any isOffset

/-- A date alone. -/
def isDate (t : Text) : Bool := afterDate? t == some []

/-- Is this literal a date, a time, or both joined by a letter? -/
def isDatetime (t : Text) : Bool :=
  match afterDate? t with
  | some [] => true
  | some (c :: rest) => (c == 'T' || c == 't') && isTimeOfDate rest
  | none => afterTime? t == some []

end DocOutline.Toml
