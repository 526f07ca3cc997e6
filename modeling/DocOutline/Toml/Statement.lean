import DocOutline.Toml.Datetime
import DocOutline.Toml.Draft
import DocOutline.Toml.Quoted

set_option autoImplicit false

/-! # TOML statements

A TOML document is a sequence of statements, each on a line of its own: a key with a value, the
header of a table, or the header of one more table of an array. This file reads the statements of a
text in which line breaks are line feeds. Values may be nested up to `nestingLimit` deep, and a key
may have as many parts. -/

namespace DocOutline.Toml

open Text

/-- A statement. Keys are split at their dots. -/
inductive Statement where
  | pair (key : List Text) (v : Value)
  | header (path : List Text)
  | elementHeader (path : List Text)
  deriving Repr, Inhabited

/-- Reads from the front of a text, or fails. -/
abbrev Reader := StateT Text Option

namespace Reader

/-- The next character, which is left in place. -/
def peek : Reader (Option Char) := do return (← get).head?

/-- Drops `n` characters. -/
def skip (n : Nat) : Reader Unit := modify (·.drop n)

/-- Takes the longest run of characters that satisfy `p`. -/
def takeWhile (p : Char → Bool) : Reader Text := do
  let t ← get
  set (t.dropWhile p)
  return t.takeWhile p

/-- Takes the character `c`. -/
def char (c : Char) : Reader Unit := do
  if (← peek) = some c then skip 1 else failure

/-- Skips blanks and tabs. -/
def blanks : Reader Unit := do let _ ← takeWhile fun c => c == ' ' || c == '\t'

/-- Skips a comment, if there is one. -/
def comment : Reader Unit := do
  if (← peek) = some '#' then let _ ← takeWhile isPlain

/-- The end of a statement: at most a comment up to the end of the line. -/
def lineEnd : Reader Unit := do
  blanks
  comment
  match ← peek with
  | none => return
  | some c => if c = '\n' then skip 1 else failure

/-- What follows white space, line breaks and comments between the items of an array. -/
def afterFiller (inComment : Bool) : Text → Text
  | [] => []
  | c :: rest =>
    if c = '\n' then afterFiller false rest
    else if inComment then (if isPlain c then afterFiller true rest else c :: rest)
    else if c = ' ' ∨ c = '\t' then afterFiller false rest
    else if c = '#' then afterFiller true rest
    else c :: rest

/-- Skips white space, line breaks and comments between the items of an array. -/
def filler : Reader Unit := modify (afterFiller false)

end Reader

open Reader

/-- How deep values may be nested, and how many parts a key may have. -/
def nestingLimit : Nat := 79

/-! ## Keys -/

def isBareKey (c : Char) : Bool :=
  ('a' ≤ c && c ≤ 'z') || ('A' ≤ c && c ≤ 'Z') || ('0' ≤ c && c ≤ '9') || c == '_' || c == '-'

/-- One part of a key: bare, or a string on one line. -/
def keyPart : Reader Text := do
  match ← peek with
  | none => failure
  | some c =>
    if c = '"' then skip 1; basicString
    else if c = apostrophe then skip 1; literalString
    else
      let part ← takeWhile isBareKey
      if part.isEmpty then failure else return part

/-- A key of at most so many parts, with the blanks around it. -/
def dottedKey : Nat → Reader (List Text)
  | 0 => failure
  | limit + 1 => do
    blanks
    let part ← keyPart
    blanks
    if (← peek) = some '.' then
      skip 1
      return part :: (← dottedKey limit)
    else return [part]

/-! ## Values -/

/-- Characters of numbers, dates and the words for booleans. -/
def isLiteral (c : Char) : Bool := isBareKey c || c == '+' || c == '.' || c == ':'

/-- A number, a boolean or a date. A date may be followed by a blank and a time. -/
def literal : Reader Value := do
  let written ← takeWhile isLiteral
  if written = "true".toList then return .boolean true
  else if written = "false".toList then return .boolean false
  else if isDate written then
    match ← get with
    | ' ' :: c :: _ =>
      if isDigit c then
        skip 1
        let time ← takeWhile isLiteral
        if isTimeOfDate time then return .datetime (written ++ ' ' :: time) else failure
      else return .datetime written
    | _ => return .datetime written
  else if isDatetime written then return .datetime written
  else if isFloat written then return .float written
  else match integer? written with
    | some n => return .integer n
    | none => failure

/-- The pairs of an inline table, put together by the rules for keys of tables. -/
def inlineTable (pairs : List (List Text × Value)) : Option Value := do
  let add := fun (entries : Entries) (pair : List Text × Value) => do
    let key ← pair.1.getLast?
    entries.insert pair.1.dropLast key pair.2
  let entries ← pairs.foldlM add []
  return .table (finishEntries entries)

mutual
/-- A value with at most `depth` further levels of nesting. -/
def value : (fuel depth : Nat) → Reader Value
  | 0, _ => failure
  | fuel + 1, depth => do
    match ← peek with
    | none => failure
    | some c =>
      if c = '"' ∨ c = apostrophe then return .string (← string?)
      else if c = '[' then
        if depth = 0 then failure
        skip 1
        return .array (← items fuel (depth - 1))
      else if c = '{' then
        if depth = 0 then failure
        skip 1
        blanks
        if (← peek) = some '}' then
          skip 1
          return .table []
        else StateT.lift (inlineTable (← pairs fuel (depth - 1)))
      else literal

/-- The items of an array up to its closing bracket; a comma may follow the last one. -/
def items : (fuel depth : Nat) → Reader (List Value)
  | 0, _ => failure
  | fuel + 1, depth => do
    filler
    if (← peek) = some ']' then
      skip 1
      return []
    else
      let v ← value fuel depth
      filler
      if (← peek) = some ',' then
        skip 1
        return v :: (← items fuel depth)
      else
        char ']'
        return [v]

/-- The pairs of an inline table up to its closing brace; there is at least one. -/
def pairs : (fuel depth : Nat) → Reader (List (List Text × Value))
  | 0, _ => failure
  | fuel + 1, depth => do
    let key ← dottedKey nestingLimit
    char '='
    blanks
    let v ← value fuel depth
    blanks
    if (← peek) = some ',' then
      skip 1
      return (key, v) :: (← pairs fuel depth)
    else
      char '}'
      return [(key, v)]
end

/-! ## Statements -/

/-- The header of a table or of an element of an array of tables. -/
def headerStatement : Reader Statement := do
  char '['
  if (← peek) = some '[' then
    skip 1
    let path ← dottedKey nestingLimit
    char ']'
    char ']'
    return .elementHeader path
  else
    let path ← dottedKey nestingLimit
    char ']'
    return .header path

/-- A key with its value. Every level of nesting and every item takes a character, so twice the
    length of the text is fuel enough for any value in it. -/
def pairStatement : Reader Statement := do
  let key ← dottedKey nestingLimit
  char '='
  blanks
  let fuel := 2 * (← get).length + 2
  return .pair key (← value fuel nestingLimit)

/-- All statements of a text with fewer characters than `fuel`. -/
def statementsFrom : (fuel : Nat) → Reader (List Statement)
  | 0 => failure
  | fuel + 1 => do
    blanks
    match ← peek with
    | none => return []
    | some c =>
      if c = '\n' ∨ c = '#' then
        lineEnd
        statementsFrom fuel
      else
        let statement ← if c = '[' then headerStatement else pairStatement
        lineEnd
        return statement :: (← statementsFrom fuel)

/-- All statements of a text. -/
def statements? (t : Text) : Option (List Statement) :=
  (statementsFrom (t.length + 1) t).map Prod.fst

end DocOutline.Toml
