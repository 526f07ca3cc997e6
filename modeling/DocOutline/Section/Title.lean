import DocOutline.Text.Space

set_option autoImplicit false

/-! # Titles

The title of a heading is what is left of it without the run of markers and without white space on
either side. -/

namespace DocOutline

open Text

/-- Is `c` one of the characters that mark a heading? -/
def isMarker (c : Char) : Bool := c == '=' || c == '#'

/-- A text without the run of one marker that it starts with, if it starts with a marker. -/
def dropMarkers (t : Text) : Text :=
  match t with
  | [] => []
  | c :: _ => if isMarker c then t.dropWhile (· == c) else t

/-- The title of a heading: the text after its run of markers, without the white space around it.
    White space before the markers is skipped, and a second run of markers belongs to the title. -/
def title (heading : Text) : Text := trim (dropMarkers (trimStart heading))

end DocOutline
