import DocOutline.Text.Basic

set_option autoImplicit false

/-! # TOML values

The values of a TOML document. Floats and dates are kept as they are written: settings hold none,
and all that matters about them is that they are there and well formed. -/

namespace DocOutline.Toml

/-- A TOML value. -/
inductive Value where
  | string (t : Text)
  | integer (n : Int)
  | float (written : Text)
  | boolean (b : Bool)
  | datetime (written : Text)
  | array (items : List Value)
  | table (entries : List (Text × Value))
  deriving Repr, Inhabited

/-- A table: its keys with their values, each key once. -/
abbrev Table := List (Text × Value)

/-- The value of a key. -/
def Table.get? (t : Table) (key : String) : Option Value := t.lookup key.toList

end DocOutline.Toml
