import DocOutline.Text.Basic

set_option autoImplicit false

/-! # Lines

A text is cut into *pieces*, each a line together with the line feed that ends it; only the last
piece may lack one. The *content* of a piece is what is left without its trailing run of line feeds
and carriage returns, so that a line reads the same under either convention of ending lines. -/

namespace DocOutline.Text

/-- Puts `c` in front of the text that is cut into `rest`. -/
def consPiece (c : Char) (rest : List Text) : List Text :=
  if c = '\n' then [c] :: rest
  else match rest with
    | [] => [[c]]
    | piece :: more => (c :: piece) :: more

/-- The lines of a text, each with the line feed that ends it. -/
def pieces (t : Text) : List Text := t.foldr consPiece []

/-- Nothing is lost in cutting a text into pieces. -/
theorem flatten_pieces (t : Text) : (pieces t).flatten = t := by
  induction t with
  | nil => rfl
  | cons c t ih =>
    show (consPiece c (pieces t)).flatten = c :: t
    unfold consPiece
    split
    · simp [ih]
    · split
      · rename_i h
        rw [h] at ih
        simpa using ih
      · rename_i piece more h
        rw [h] at ih
        simpa using ih

/-- Line feed or carriage return. -/
def isLineBreak (c : Char) : Bool := c == '\n' || c == '\r'

/-- A piece without its trailing run of line feeds and carriage returns. -/
def lineContent (piece : Text) : Text := dropEndWhile isLineBreak piece

end DocOutline.Text
