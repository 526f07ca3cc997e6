import DocOutline.Text.Basic
import DocOutline.Token.Basic

set_option autoImplicit false

/-! # The token dump

One line per token: its kind, with the level of a heading, then its first byte and the byte after
its last. -/

namespace DocOutline

open Text

/-- The name of a kind in the dump. -/
def TokenKind.label : TokenKind → Text
  | .header level => "header".toList ++ ofNat level
  | .codeBlock => "code_block".toList
  | .other => "other".toList

/-- The line of one token, with the line feed that ends it. -/
def Token.dumpLine (t : Token) : Text :=
  t.kind.label ++ ' ' :: ofNat t.start ++ '.' :: '.' :: ofNat t.stop ++ ['\n']

/-- The dump of a list of tokens. -/
def Token.dump (tokens : List Token) : Text := tokens.flatMap Token.dumpLine

end DocOutline
