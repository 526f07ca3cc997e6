import DocOutline.Token.Stream

set_option autoImplicit false

/-! # Documents

A document is a text with tokens over it. Most documents come from reading a text; a document can
also be put together token by token, each one covering the content that is added with it. -/

namespace DocOutline

open Text

/-- A text with tokens over it. -/
structure Document where
  text : Text := []
  tokens : List Token := []
  deriving DecidableEq, Repr, Inhabited

namespace Document

/-- The document of a text, with the tokens that the rules find in it. -/
def ofText (rules : HeadingRules) (text : Text) : Document := ⟨text, rules.stream text⟩

/-- The token that adding `content` to the end of the document gives. -/
def nextToken (d : Document) (kind : TokenKind) (content : Text) : Token :=
  ⟨kind, byteLength d.text, byteLength d.text + byteLength content⟩

/-- Adds `content` to the end of the text, and a token of the given kind over it. -/
def push (d : Document) (kind : TokenKind) (content : Text) : Document :=
  ⟨d.text ++ content, d.tokens ++ [d.nextToken kind content]⟩

/-- A document put together from the pairs of kind and content in order. -/
def ofParts (parts : List (TokenKind × Text)) : Document :=
  parts.foldl (fun d part => d.push part.1 part.2) {}

end Document

end DocOutline
