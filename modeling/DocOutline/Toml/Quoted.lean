import DocOutline.Toml.Number

set_option autoImplicit false

/-! # TOML strings

Four forms: in double quotes with escapes or in single quotes without, each on one line or between
tripled quotes over many. Line breaks are line feeds here. The readers start after the opening
quotes and return the string together with what follows the closing ones. -/

namespace DocOutline.Toml

open Text

/-- The single quote. -/
def apostrophe : Char := Char.ofNat 0x27

/-- Characters that may stand for themselves in strings and comments: all but control characters,
    of which the tab is admitted. -/
def isPlain (c : Char) : Bool := c == '\t' || (0x20 ≤ c.toNat && c.toNat != 0x7F)

/-! ## Escapes -/

/-- The character that a backslash and `c` stand for. -/
def shortEscape? (c : Char) : Option Char :=
  match c with
  | 'b' => some (Char.ofNat 0x08)
  | 't' => some '\t'
  | 'n' => some '\n'
  | 'f' => some (Char.ofNat 0x0C)
  | 'r' => some '\r'
  | '"' => some '"'
  | '\\' => some '\\'
  | _ => none

/-- The character with the code point written in these hexadecimal digits. -/
def scalar? (digits : Text) : Option Char := do
  let n ← digits.foldlM (fun acc c => (digit? 16 c).map (acc * 16 + ·)) 0
  if n.isValidChar then some (Char.ofNat n) else none

/-! ## Strings on one line -/

/-- A string in double quotes. -/
def basicString : Text → Option (Text × Text)
  | '"' :: rest => some ([], rest)
  | '\\' :: 'u' :: a :: b :: c :: d :: rest => do
    let ch ← scalar? [a, b, c, d]
    let (s, rest) ← basicString rest
    return (ch :: s, rest)
  | '\\' :: 'U' :: a :: b :: c :: d :: e :: f :: g :: h :: rest => do
    let ch ← scalar? [a, b, c, d, e, f, g, h]
    let (s, rest) ← basicString rest
    return (ch :: s, rest)
  | '\\' :: c :: rest => do
    let ch ← shortEscape? c
    let (s, rest) ← basicString rest
    return (ch :: s, rest)
  | c :: rest =>
    if c ≠ '\\' ∧ isPlain c then do
      let (s, rest) ← basicString rest
      return (c :: s, rest)
    else none
  | [] => none

/-- A string in single quotes. -/
def literalString (t : Text) : Option (Text × Text) :=
  let inside := fun c => isPlain c && c != apostrophe
  match t.dropWhile inside with
  | c :: rest => if c = apostrophe then some (t.takeWhile inside, rest) else none
  | [] => none

/-! ## Strings over many lines -/

/-- The end of a string between tripled quotes: up to two more quotes may stand before the closing
    ones and belong to the string. -/
def closing? (quote : Char) (t : Text) : Option (Text × Text) :=
  let width := min (run quote t) 5
  if 3 ≤ width then some (List.replicate (width - 3) quote, t.drop width) else none

/-- Where the reader is after a backslash at the end of a line. -/
inductive Folding where
  /-- Nowhere near one. -/
  | none
  /-- Between the backslash and the line break, where only blanks may stand. -/
  | beforeBreak
  /-- After the line break, where blanks and line breaks are skipped. -/
  | afterBreak
  deriving DecidableEq, Repr

/-- A string between tripled double quotes. -/
def multilineBasic (folding : Folding) : Text → Option (Text × Text)
  | [] => none
  | c :: rest =>
    if folding = .beforeBreak then
      if c = ' ' ∨ c = '\t' then multilineBasic .beforeBreak rest
      else if c = '\n' then multilineBasic .afterBreak rest
      else none
    else if folding = .afterBreak ∧ (c = ' ' ∨ c = '\t' ∨ c = '\n') then
      multilineBasic .afterBreak rest
    else match closing? '"' (c :: rest) with
      | some found => some found
      | none =>
        if c = '\\' then
          match rest with
          | 'u' :: a :: b :: c :: d :: more => do
            let ch ← scalar? [a, b, c, d]
            let (s, left) ← multilineBasic .none more
            return (ch :: s, left)
          | 'U' :: a :: b :: c :: d :: e :: f :: g :: h :: more => do
            let ch ← scalar? [a, b, c, d, e, f, g, h]
            let (s, left) ← multilineBasic .none more
            return (ch :: s, left)
          | '\n' :: more => multilineBasic .afterBreak more
          | ' ' :: more => multilineBasic .beforeBreak more
          | '\t' :: more => multilineBasic .beforeBreak more
          | e :: more => do
            let ch ← shortEscape? e
            let (s, left) ← multilineBasic .none more
            return (ch :: s, left)
          | [] => none
        else if isPlain c ∨ c = '\n' then do
          let (s, left) ← multilineBasic .none rest
          return (c :: s, left)
        else none

/-- A string between tripled single quotes. -/
def multilineLiteral : Text → Option (Text × Text)
  | [] => none
  | c :: rest =>
    match closing? apostrophe (c :: rest) with
    | some found => some found
    | none =>
      if isPlain c ∨ c = '\n' then do
        let (s, left) ← multilineLiteral rest
        return (c :: s, left)
      else none

/-- A line break right after tripled opening quotes is no part of the string. -/
def skipFirstBreak : Text → Text
  | '\n' :: t => t
  | t => t

/-- A string of any form, from its opening quotes on. -/
def string? (t : Text) : Option (Text × Text) :=
  match t with
  | [] => none
  | quote :: rest =>
    let tripled := 3 ≤ run quote t
    if quote = '"' then
      if tripled then multilineBasic .none (skipFirstBreak (t.drop 3)) else basicString rest
    else if quote = apostrophe then
      if tripled then multilineLiteral (skipFirstBreak (t.drop 3)) else literalString rest
    else none

end DocOutline.Toml
