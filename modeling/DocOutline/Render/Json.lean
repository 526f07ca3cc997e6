import DocOutline.Section.Basic

set_option autoImplicit false

/-! # The outline as JSON

An array of objects with the members `name`, `level`, `start`, `end` and `children`, in this order,
with two blanks of indentation for every level of brackets. An empty array is written on one line.
In a string, the quote, the backslash and the control characters below the blank are escaped, by
their short forms where there is one; every other character stands for itself. -/

namespace DocOutline

open Text

namespace Json

/-- The digit of a number below 16. -/
def hexDigit (n : Nat) : Char := Nat.digitChar n

/-- How a character is written inside a string. -/
def escape (c : Char) : Text :=
  if c = '"' then ['\\', '"']
  else if c = '\\' then ['\\', '\\']
  else if c.toNat = 0x08 then ['\\', 'b']
  else if c.toNat = 0x09 then ['\\', 't']
  else if c.toNat = 0x0A then ['\\', 'n']
  else if c.toNat = 0x0C then ['\\', 'f']
  else if c.toNat = 0x0D then ['\\', 'r']
  else if c.toNat < 0x20 then
    ['\\', 'u', '0', '0', hexDigit (c.toNat / 16), hexDigit (c.toNat % 16)]
  else [c]

/-- A text as a JSON string. -/
def string (t : Text) : Text := '"' :: t.flatMap escape ++ ['"']

/-- Indentation inside `depth` brackets. -/
def indent (depth : Nat) : Text := List.replicate (2 * depth) ' '

/-- A member of an object inside `depth` brackets, on a line of its own. -/
def member (depth : Nat) (key : String) (value : Text) : Text :=
  '\n' :: indent depth ++ string key.toList ++ [':', ' '] ++ value

end Json

open Json

mutual
/-- A section as a JSON object inside `depth` brackets. -/
def Section.json (depth : Nat) : Section → Text
  | ⟨name, level, start, stop, children⟩ =>
    '{' :: member (depth + 1) "name" (string name) ++ ','
      :: member (depth + 1) "level" (ofNat level) ++ ','
      :: member (depth + 1) "start" (ofNat start) ++ ','
      :: member (depth + 1) "end" (ofNat stop) ++ ','
      :: member (depth + 1) "children" (Forest.json (depth + 1) children)
      ++ '\n' :: indent depth ++ ['}']

/-- A forest as a JSON array inside `depth` brackets. -/
def Forest.json (depth : Nat) : List Section → Text
  | [] => ['[', ']']
  | s :: rest =>
    '[' :: '\n' :: indent (depth + 1) ++ s.json (depth + 1) ++ Forest.jsonRest (depth + 1) rest
      ++ '\n' :: indent depth ++ [']']

/-- The further elements of an array inside `depth` brackets. -/
def Forest.jsonRest (depth : Nat) : List Section → Text
  | [] => []
  | s :: rest => ',' :: '\n' :: indent depth ++ s.json depth ++ Forest.jsonRest depth rest
end

/-- The outline as JSON. -/
def Forest.renderJson (f : Forest) : Text := Forest.json 0 f ++ ['\n']

end DocOutline
