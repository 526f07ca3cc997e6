import DocOutline.LineKind
import DocOutline.Text.Line
import DocOutline.Token.Basic

set_option autoImplicit false

/-! # The token stream of a document

The lines of a document are read in order. At any moment one token is unfinished: a stretch of
other content, or a code block that waits for its closing line. A heading line ends the stretch
before it and is a token of its own; a delimiter ends the stretch before it and starts a block; a
block ends with the line that closes it, or with the document. Line breaks belong to the token that
follows, and a stretch without bytes is no token, so the stream tiles the document. -/

namespace DocOutline

open Text

/-- The unfinished token: where it starts, and the fence it waits for if it is a code block. -/
structure Pending where
  start : Nat
  fence : Option Fence := none
  deriving DecidableEq, Repr, Inhabited

/-- A stretch of other content, unless it has no bytes. -/
def Token.stretch (start stop : Nat) : List Token :=
  if start < stop then [⟨.other, start, stop⟩] else []

/-- The unfinished token, cut off at the end of the document. -/
def Pending.finish (p : Pending) (stop : Nat) : List Token :=
  match p.fence with
  | some _ => [⟨.codeBlock, p.start, stop⟩]
  | none => Token.stretch p.start stop

/-- The tokens that end in the lines `pieces`, of which the first starts at byte `pos`. -/
def HeadingRules.streamFrom (rules : HeadingRules) (pos : Nat) (p : Pending) :
    List Text → List Token
  | [] => p.finish pos
  | piece :: rest =>
    let line := lineContent piece
    let stop := pos + byteLength line
    let next := pos + byteLength piece
    match p.fence with
    | some fence =>
      if fence.closedBy line then
        ⟨.codeBlock, p.start, stop⟩ :: rules.streamFrom next ⟨stop, none⟩ rest
      else rules.streamFrom next p rest
    | none =>
      match rules.classify line with
      | .header level =>
        Token.stretch p.start pos ++
          ⟨.header level, pos, stop⟩ :: rules.streamFrom next ⟨stop, none⟩ rest
      | .delimiter fence =>
        Token.stretch p.start pos ++ rules.streamFrom next ⟨pos, some fence⟩ rest
      | .other => rules.streamFrom next p rest

/-- The token stream of a text. -/
def HeadingRules.stream (rules : HeadingRules) (text : Text) : List Token :=
  rules.streamFrom 0 ⟨0, none⟩ (pieces text)

end DocOutline
