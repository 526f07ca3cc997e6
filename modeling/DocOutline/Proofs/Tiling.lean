import DocOutline.Proofs.Reading
import Mathlib.Data.List.Chain

set_option autoImplicit false

/-! # The token stream tiles the text

`Token.Covers pos tokens t` says that the tokens cover the text `t`, which starts at byte `pos`,
part by part: the text is put together from non-empty parts, and each token has the span of its
part. All that tiling means follows from it by induction: spans that join, no empty token,
character boundaries, and the text as the concatenation of what the tokens cover.

The stream of a text covers it (`HeadingRules.stream_covers`), by induction on how its lines are
read: between a token and the next line lies what has been read of a stretch of other content, if
only the line break after a heading. -/

namespace DocOutline

open Text

/-! ## Covering a text -/

/-- The tokens cover the text, which starts at byte `pos`, in parts that are not empty. -/
inductive Token.Covers : Nat → List Token → Text → Prop
  | nil (pos : Nat) : Covers pos [] []
  | cons {pos : Nat} {kind : TokenKind} {part rest : Text} {tokens : List Token} (hne : part ≠ [])
      (h : Covers (pos + byteLength part) tokens rest) :
      Covers pos (⟨kind, pos, pos + byteLength part⟩ :: tokens) (part ++ rest)

namespace Token.Covers

variable {pos : Nat} {tokens : List Token} {t : Text}

theorem start_lt_stop (h : Covers pos tokens t) : ∀ token ∈ tokens, token.start < token.stop := by
  induction h with
  | nil => simp
  | cons hne _ ih =>
    intro token hmem
    have hpos := byteLength_pos hne
    rcases List.mem_cons.1 hmem with rfl | hmem
    · exact Nat.lt_add_of_pos_right hpos
    · exact ih token hmem

theorem head_start (h : Covers pos tokens t) : ∀ token ∈ tokens.head?, token.start = pos := by
  cases h with
  | nil => simp
  | cons hne h =>
    intro token hmem
    rw [List.head?_cons, Option.mem_some_iff] at hmem
    rw [← hmem]

theorem eq_nil_iff (h : Covers pos tokens t) : tokens = [] ↔ t = [] := by
  cases h with
  | nil => simp
  | cons hne h => simp [hne]

/-- Each token starts where the one before it ends. -/
theorem isChain (h : Covers pos tokens t) : tokens.IsChain fun a b => a.stop = b.start := by
  induction h with
  | nil => exact List.isChain_nil
  | cons _ h ih => exact ih.cons fun next hnext => (h.head_start next hnext).symm

theorem getLast_stop (h : Covers pos tokens t) :
    ∀ token ∈ tokens.getLast?, token.stop = pos + byteLength t := by
  induction h with
  | nil => simp
  | @cons pos kind part rest tokens hne h ih =>
    intro token hmem
    rw [byteLength_append, ← Nat.add_assoc]
    cases h with
    | nil =>
      rw [List.getLast?_singleton, Option.mem_some_iff] at hmem
      rw [← hmem, byteLength_nil, Nat.add_zero]
    | cons hne' h' => exact ih token (by rwa [List.getLast?_cons_cons] at hmem)

/-- Both ends of a token are character boundaries, also of a longer text. -/
theorem isBoundary (h : Covers pos tokens t) (front : Text) (hfront : byteLength front = pos) :
    ∀ token ∈ tokens, IsBoundary (front ++ t) token.start ∧ IsBoundary (front ++ t) token.stop := by
  induction h generalizing front with
  | nil => simp
  | @cons pos kind part rest tokens hne h ih =>
    intro token hmem
    rcases List.mem_cons.1 hmem with rfl | hmem
    · refine ⟨⟨front, part ++ rest, rfl, hfront⟩, front ++ part, rest, ?_, ?_⟩
      · rw [List.append_assoc]
      · rw [byteLength_append, hfront]
    · rw [← List.append_assoc]
      exact ih (front ++ part) (by rw [byteLength_append, hfront]) token hmem

/-- What the tokens cover, put together, is the text. -/
theorem flatMap_text (h : Covers pos tokens t) (front : Text) (hfront : byteLength front = pos) :
    (tokens.flatMap fun token => token.text (front ++ t)) = t := by
  induction h generalizing front with
  | nil => rfl
  | @cons pos kind part rest tokens hne h ih =>
    have hpart :
        Token.text ⟨kind, pos, pos + byteLength part⟩ (front ++ (part ++ rest)) = part :=
      Token.text_of_append rfl hfront.symm (by rw [hfront])
    have hrest := ih (front ++ part) (by rw [byteLength_append, hfront])
    rw [List.append_assoc] at hrest
    rw [List.flatMap_cons, hpart, hrest]

theorem le_start (h : Covers pos tokens t) : ∀ token ∈ tokens, pos ≤ token.start := by
  induction h with
  | nil => simp
  | cons _ _ ih =>
    intro token hmem
    rcases List.mem_cons.1 hmem with rfl | hmem
    · exact Nat.le_refl _
    · exact Nat.le_of_add_right_le (ih token hmem)

/-- No two tokens share a byte. -/
theorem eq_of_mem_span (h : Covers pos tokens t) {a b : Token} (ha : a ∈ tokens) (hb : b ∈ tokens)
    {n : Nat} (han : a.start ≤ n ∧ n < a.stop) (hbn : b.start ≤ n ∧ n < b.stop) : a = b := by
  induction h with
  | nil => simp at ha
  | @cons pos kind part rest tokens hne h ih =>
    rcases List.mem_cons.1 ha with rfl | ha' <;> rcases List.mem_cons.1 hb with rfl | hb'
    · rfl
    · have hnext := h.le_start b hb'
      have hstop : n < pos + byteLength part := han.2
      omega
    · have hnext := h.le_start a ha'
      have hstop : n < pos + byteLength part := hbn.2
      omega
    · exact ih ha' hb'

/-- A stretch of other content may be put in front, and leaves no trace if it is empty. -/
theorem stretch_append (part : Text) (h : Covers (pos + byteLength part) tokens t) :
    Covers pos (Token.stretch pos (pos + byteLength part) ++ tokens) (part ++ t) := by
  by_cases hne : part = []
  · subst hne
    rw [Token.stretch, if_neg (by simp)]
    simpa using h
  · have hpos := byteLength_pos hne
    rw [Token.stretch, if_pos (by omega)]
    exact .cons hne h

end Token.Covers

/-! ## The stream covers the text -/

/-- The tokens of a reading cover what has been read of the stretch so far, `read`, and the lines
    that are left. -/
theorem HeadingRules.Reads.covers {rules : HeadingRules} {pos start : Nat} {lines : List Text}
    {tokens : List Token} (h : rules.Reads pos start lines tokens) (read : Text)
    (hread : pos = start + byteLength read) :
    Token.Covers start tokens (read ++ lines.flatten) := by
  induction h generalizing read with
  | done pos start =>
    subst hread
    have hnil := (Token.Covers.nil (start + byteLength read)).stretch_append read
    rwa [List.append_nil] at hnil
  | @header pos start level piece rest tokens hkind _ ih =>
    subst hread
    obtain ⟨ending, hpiece⟩ := exists_lineContent_append piece
    have hline := rules.ne_nil_of_classify_eq hkind (by simp)
    have hlen := congrArg byteLength hpiece
    have hrest := ih ending (by rw [byteLength_append] at hlen; omega)
    have hsplit : (piece :: rest).flatten = lineContent piece ++ (ending ++ rest.flatten) := by
      rw [List.flatten_cons, ← List.append_assoc, ← hpiece]
    rw [hsplit]
    exact (Token.Covers.cons hline hrest).stretch_append read
  | @closed pos start fence piece closing skipped rest tokens hkind _ hclosing _ ih =>
    subst hread
    obtain ⟨ending, hending⟩ := exists_lineContent_append closing
    have hlen := congrArg byteLength hending
    have hrest := ih ending (by rw [byteLength_append] at hlen; omega)
    -- the block is its delimiter, the lines it skips and the content of the closing line
    have hpart : piece ++ skipped.flatten ++ lineContent closing ≠ [] := by
      simp [Fence.ne_nil_of_closedBy hclosing]
    have hsplit : (piece :: (skipped ++ closing :: rest)).flatten
        = (piece ++ skipped.flatten ++ lineContent closing) ++ (ending ++ rest.flatten) := by
      rw [List.flatten_cons, List.flatten_append, List.flatten_cons]
      conv => lhs; rw [hending]
      simp only [List.append_assoc]
    have hstop : ∀ n, n + byteLength piece + byteLength skipped.flatten
        + byteLength (lineContent closing)
          = n + byteLength (piece ++ skipped.flatten ++ lineContent closing) := by
      intro n
      simp only [byteLength_append, Nat.add_assoc]
    rw [hsplit, hstop]
    rw [hstop] at hrest
    exact (Token.Covers.cons hpart hrest).stretch_append read
  | @unclosed pos start fence piece rest hkind _ =>
    subst hread
    have hline := rules.ne_nil_of_classify_eq hkind (by simp)
    have hpart : piece ++ rest.flatten ≠ [] := by simp [ne_nil_of_lineContent_ne_nil hline]
    have hblock : Token.Covers (start + byteLength read)
        [⟨.codeBlock, start + byteLength read,
          start + byteLength read + byteLength (piece ++ rest.flatten)⟩]
        (piece ++ rest.flatten ++ []) := .cons hpart (.nil _)
    rw [List.append_nil, byteLength_append, ← Nat.add_assoc] at hblock
    exact hblock.stretch_append read
  | @other pos start piece rest tokens _ _ ih =>
    have hrest := ih (read ++ piece) (by rw [byteLength_append]; omega)
    rwa [List.append_assoc, ← List.flatten_cons] at hrest

/-- The stream of a text covers it. -/
theorem HeadingRules.stream_covers (rules : HeadingRules) (text : Text) :
    Token.Covers 0 (rules.stream text) text := by
  have h := (rules.stream_reads text).covers [] rfl
  rwa [List.nil_append, flatten_pieces] at h

/-- The two tokens are not both stretches of other content. -/
def Token.NotBothOther (a b : Token) : Prop := ¬ (a.kind = .other ∧ b.kind = .other)

/-- A token of another kind may follow a stretch. -/
theorem Token.stretch_append_isChain (start stop : Nat) {token : Token} {tokens : List Token}
    (hkind : token.kind ≠ .other) (h : tokens.IsChain Token.NotBothOther) :
    (Token.stretch start stop ++ token :: tokens).IsChain Token.NotBothOther := by
  have htoken : (token :: tokens).IsChain Token.NotBothOther :=
    h.cons fun _ _ hboth => hkind hboth.1
  rw [Token.stretch]
  split
  · exact List.IsChain.cons_cons (fun hboth => hkind hboth.2) htoken
  · exact htoken

/-- Between two stretches of other content there is always another token. -/
theorem HeadingRules.Reads.isChain {rules : HeadingRules} {pos start : Nat} {lines : List Text}
    {tokens : List Token} (h : rules.Reads pos start lines tokens) :
    tokens.IsChain Token.NotBothOther := by
  induction h with
  | done pos start =>
    rw [Token.stretch]
    split
    · exact List.isChain_singleton _
    · exact List.isChain_nil
  | header _ _ ih => exact Token.stretch_append_isChain _ _ (by simp) ih
  | closed _ _ _ _ ih => exact Token.stretch_append_isChain _ _ (by simp) ih
  | unclosed _ _ => exact Token.stretch_append_isChain _ _ (by simp) List.isChain_nil
  | other _ _ ih => exact ih

/-- **Lossless tiling.** For every text and all rules: no token of the stream is empty, the first
    one starts at 0, each one starts where the one before it ends, and the last one ends with the
    text; only the empty text has no tokens. Tokens start and end between characters, and what they
    cover, put together, is the text. No two stretches of other content stand next to each other. -/
theorem HeadingRules.stream_tiles (rules : HeadingRules) (text : Text) :
    let tokens := rules.stream text
    (∀ t ∈ tokens, t.start < t.stop) ∧
    (∀ t ∈ tokens.head?, t.start = 0) ∧
    (tokens.IsChain fun a b => a.stop = b.start) ∧
    (∀ t ∈ tokens.getLast?, t.stop = byteLength text) ∧
    (tokens = [] ↔ text = []) ∧
    (∀ t ∈ tokens, IsBoundary text t.start ∧ IsBoundary text t.stop) ∧
    (tokens.flatMap fun t => t.text text) = text ∧
    tokens.IsChain Token.NotBothOther := by
  intro tokens
  have h : Token.Covers 0 tokens text := rules.stream_covers text
  refine ⟨h.start_lt_stop, h.head_start, h.isChain, ?_, h.eq_nil_iff, h.isBoundary [] rfl,
    h.flatMap_text [] rfl, (rules.stream_reads text).isChain⟩
  intro t ht
  rw [h.getLast_stop t ht, Nat.zero_add]

/-- A heading with a character of two bytes in front of a line break. -/
theorem HeadingRules.stream_tiles_wide :
    let text := ['=', ' ', 'é', '\n']
    (⟨.header 1, 0, 4⟩ : Token) ∈ HeadingRules.stream {} text ∧
    IsBoundary text 0 ∧ IsBoundary text 4 := by
  intro text
  have hmem : (⟨.header 1, 0, 4⟩ : Token) ∈ HeadingRules.stream {} text := by decide
  exact ⟨hmem, (HeadingRules.stream_tiles {} text).2.2.2.2.2.1 _ hmem⟩

end DocOutline
