import DocOutline.Proofs.Lines
import DocOutline.Proofs.Nesting
import DocOutline.Token.Dump
import Mathlib.Data.List.Forall2

set_option autoImplicit false

/-! # Header lines and sections

The lines of a token dump that are about headers stand for the sections of the outline, one for one
and in reading order (`Document.forall₂_headerLines_walk`).

The dump is taken as the text that it is, cut into lines again; that its lines are those of the
tokens needs that no number or name in them has a line feed. -/

namespace DocOutline

open Text

/-! ## The lines of the token dump -/

theorem TokenKind.newline_notMem_label (kind : TokenKind) : '\n' ∉ kind.label := by
  unfold TokenKind.label
  cases kind with
  | header level => simp [newline_notMem_ofNat]
  | codeBlock => simp
  | other => simp

theorem Token.pieces_dump (tokens : List Token) :
    pieces (Token.dump tokens) = tokens.map Token.dumpLine := by
  refine pieces_flatMap ?_
  intro t _
  exact ⟨_, by simp [TokenKind.newline_notMem_label, newline_notMem_ofNat], rfl⟩

/-- The lines of a token dump that are about headers. -/
def headerLines (dump : Text) : List Text :=
  (pieces dump).filter fun line => "header".toList.isPrefixOf line

theorem Token.isPrefixOf_dumpLine (t : Token) :
    "header".toList.isPrefixOf t.dumpLine = t.kind.isHeader := by
  obtain ⟨kind, start, stop⟩ := t
  unfold Token.dumpLine TokenKind.label
  cases kind with
  | header level =>
    refine List.isPrefixOf_iff_prefix.2 ?_
    simp only [List.append_assoc]
    exact List.prefix_append ..
  | codeBlock =>
    simp only [String.reduceToList]
    rfl
  | other =>
    simp only [String.reduceToList]
    rfl

theorem headerLines_dump (tokens : List Token) :
    headerLines (Token.dump tokens)
      = (tokens.filter fun t => t.kind.isHeader).map Token.dumpLine := by
  rw [headerLines, Token.pieces_dump, List.filter_map]
  congr 2
  funext t
  exact t.isPrefixOf_dumpLine

/-! ## Headers and sections -/

/-- A section comes from a header token, with its level, start and title. -/
structure Document.HeaderOf (d : Document) (t : Token) (row : Row) : Prop where
  kind : t.kind = .header row.node.level
  start : t.start = row.node.start
  name : title (t.text d.text) = row.node.name

/-- The header tokens and the sections of the outline belong together, one for one. -/
theorem Document.forall₂_headers_walk (d : Document) :
    List.Forall₂ d.HeaderOf d.headers (Forest.walk d.outline) := by
  rw [List.forall₂_iff_get]
  constructor
  · rw [Forest.walk_eq_rows, Forest.length_rows, outline_eq, Forest.size_ofHeadings, length_headings]
  · intro i hi hrows
    obtain ⟨level, row, hkind, hrow, -, hnode⟩ := exists_row (List.getElem?_eq_getElem hi)
    obtain ⟨_, rfl⟩ := List.getElem?_eq_some_iff.1 hrow
    rw [List.get_eq_getElem, List.get_eq_getElem]
    exact ⟨by rw [hnode]; exact hkind, by rw [hnode]; rfl, by rw [hnode]; rfl⟩

/-- The line of a token dump for a header with the level and the start of a section, wherever the
    header ends. -/
def Row.HasHeaderLine (line : Text) (row : Row) : Prop :=
  ∃ stop, line = "header".toList ++ ofNat row.node.level ++ ' ' :: ofNat row.node.start
    ++ '.' :: '.' :: ofNat stop ++ ['\n']

/-- The lines about headers in the dump of a document, and the sections of its outline. -/
theorem Document.forall₂_headerLines_walk (d : Document) :
    List.Forall₂ Row.HasHeaderLine (headerLines (Token.dump d.tokens)) (Forest.walk d.outline) := by
  rw [headerLines_dump, List.forall₂_map_left_iff]
  refine d.forall₂_headers_walk.imp fun t row h => ⟨t.stop, ?_⟩
  rw [Token.dumpLine, h.kind, h.start]
  rfl

end DocOutline
