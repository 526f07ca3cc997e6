import DocOutline.Text.Basic

set_option autoImplicit false

/-! # Tokens

A token says what a stretch of a document is. It is plain data: nothing ties its offsets to a text,
so tokens can overlap, stand in any order, end before they start or lie beyond the text they are
used with. What a token covers is asked of it together with a text. -/

namespace DocOutline

/-- What a stretch of a document is. -/
inductive TokenKind where
  /-- A heading line, without the line break after it. -/
  | header (level : Nat)
  /-- A code block, with both of its delimiters. -/
  | codeBlock
  /-- Anything between headings and code blocks. -/
  | other
  deriving DecidableEq, Repr, Inhabited

/-- The level of a heading. -/
def TokenKind.level? : TokenKind → Option Nat
  | .header level => some level
  | _ => none

def TokenKind.isHeader (k : TokenKind) : Bool := k.level?.isSome

/-- The bytes from `start` up to `stop` are of kind `kind`. -/
structure Token where
  kind : TokenKind
  start : Nat
  stop : Nat
  deriving DecidableEq, Repr, Inhabited

namespace Token

/-- Number of bytes covered; none if the token ends before it starts. -/
def length (t : Token) : Nat := t.stop - t.start

def isEmpty (t : Token) : Bool := t.length == 0

/-- What the token covers of `text`; nothing if its ends are in the wrong order, or one of them is
    no character boundary of the text. -/
def text (t : Token) (text : Text) : Text := (Text.slice? text t.start t.stop).getD []

end Token

end DocOutline
