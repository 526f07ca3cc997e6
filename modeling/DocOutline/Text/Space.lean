import DocOutline.Text.Basic

set_option autoImplicit false

/-! # White space

White space is the `White_Space` property of characters: the ASCII blanks and line breaks, the next
line control, and the separators from the no-break space to the ideographic space. -/

namespace DocOutline.Text

/-- First and last code point of every range of white space. -/
def spaceRanges : List (Nat × Nat) := [
    (0x9, 0xD), (0x20, 0x20), (0x85, 0x85), (0xA0, 0xA0), (0x1680, 0x1680), (0x2000, 0x200A),
    (0x2028, 0x2029), (0x202F, 0x202F), (0x205F, 0x205F), (0x3000, 0x3000) ]

/-- Is `c` white space? -/
def isSpace (c : Char) : Bool := inRanges spaceRanges c

/-- The text without leading white space. -/
def trimStart (t : Text) : Text := t.dropWhile isSpace

/-- The text without trailing white space. -/
def trimEnd (t : Text) : Text := dropEndWhile isSpace t

/-- The text without leading and trailing white space. -/
def trim (t : Text) : Text := trimEnd (trimStart t)

end DocOutline.Text
