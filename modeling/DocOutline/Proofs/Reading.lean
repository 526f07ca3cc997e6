import DocOutline.Proofs.Bytes
import DocOutline.Token.Stream

set_option autoImplicit false

/-! # Reading lines

The token stream is made line by line, with the unfinished token as the state. Here a code block is
taken as one step: outside of blocks the state is only where the stretch of other content starts
that is being read, and a line is a heading, opens a block, or is content.

`HeadingRules.Reads` lists these steps, and the stream is one of its readings
(`HeadingRules.stream_reads`). What holds of every token stream is proved by induction on the steps
and does not look into the loop again. -/

namespace DocOutline

open Text

/-! ## What a token covers -/

/-- A token with the offsets of a part of a text covers this part. -/
theorem Token.text_of_append {token : Token} {t front part back : Text}
    (ht : t = front ++ (part ++ back)) (hstart : token.start = byteLength front)
    (hstop : token.stop = byteLength front + byteLength part) : token.text t = part := by
  rw [Token.text, ht, hstart, hstop, slice?_append, Option.getD_some]

/-! ## Stretches of other content -/

theorem Token.kind_of_mem_stretch {start stop : Nat} {token : Token}
    (h : token ∈ Token.stretch start stop) : token.kind = .other := by
  rw [Token.stretch] at h
  split at h
  · rw [List.mem_singleton.1 h]
  · exact absurd h (by simp)

theorem Token.mem_of_mem_stretch_append {start stop : Nat} {token first : Token}
    {tokens : List Token} (h : token ∈ Token.stretch start stop ++ first :: tokens)
    (hkind : token.kind ≠ .other) : token = first ∨ token ∈ tokens := by
  rcases List.mem_append.1 h with hstretch | hrest
  · exact absurd (Token.kind_of_mem_stretch hstretch) hkind
  · exact List.mem_cons.1 hrest

theorem Token.mem_stretch_append {start stop : Nat} (h : start < stop) (more : List Token) :
    ⟨.other, start, stop⟩ ∈ Token.stretch start stop ++ more := by
  rw [Token.stretch, if_pos h]
  exact List.mem_cons_self

/-! ## What one line does -/

section Step

variable (rules : HeadingRules) (pos start : Nat) (piece : Text) (rest : List Text)

theorem HeadingRules.streamFrom_block_cons (fence : Fence) :
    rules.streamFrom pos ⟨start, some fence⟩ (piece :: rest)
      = if fence.closedBy (lineContent piece) then
          ⟨.codeBlock, start, pos + byteLength (lineContent piece)⟩
            :: rules.streamFrom (pos + byteLength piece)
                ⟨pos + byteLength (lineContent piece), none⟩ rest
        else rules.streamFrom (pos + byteLength piece) ⟨start, some fence⟩ rest := rfl

theorem HeadingRules.streamFrom_header {level : Nat}
    (h : rules.classify (lineContent piece) = .header level) :
    rules.streamFrom pos ⟨start, none⟩ (piece :: rest)
      = Token.stretch start pos ++
          ⟨.header level, pos, pos + byteLength (lineContent piece)⟩
            :: rules.streamFrom (pos + byteLength piece)
                ⟨pos + byteLength (lineContent piece), none⟩ rest := by
  simp only [HeadingRules.streamFrom, h]

theorem HeadingRules.streamFrom_delimiter {fence : Fence}
    (h : rules.classify (lineContent piece) = .delimiter fence) :
    rules.streamFrom pos ⟨start, none⟩ (piece :: rest)
      = Token.stretch start pos ++
          rules.streamFrom (pos + byteLength piece) ⟨pos, some fence⟩ rest := by
  simp only [HeadingRules.streamFrom, h]

theorem HeadingRules.streamFrom_other (h : rules.classify (lineContent piece) = .other) :
    rules.streamFrom pos ⟨start, none⟩ (piece :: rest)
      = rules.streamFrom (pos + byteLength piece) ⟨start, none⟩ rest := by
  simp only [HeadingRules.streamFrom, h]

end Step

/-- An empty line is other content. -/
theorem HeadingRules.classify_nil (rules : HeadingRules) : rules.classify [] = .other := rfl

theorem HeadingRules.ne_nil_of_classify_eq (rules : HeadingRules) {line : Text} {kind : LineKind}
    (h : rules.classify line = kind) (hkind : kind ≠ .other) : line ≠ [] := by
  rintro rfl
  exact hkind (h.symm.trans rules.classify_nil)

theorem Fence.ne_nil_of_closedBy {fence : Fence} {line : Text} (h : fence.closedBy line = true) :
    line ≠ [] := by
  rintro rfl
  exact Bool.false_ne_true h

/-! ## What a code block does -/

/-- A code block takes in the lines up to the first one that closes it, or all that are left. -/
theorem HeadingRules.streamFrom_block (rules : HeadingRules) (pos start : Nat) (fence : Fence)
    (lines : List Text) :
    (∃ skipped closing rest, lines = skipped ++ closing :: rest ∧
      (∀ l ∈ skipped, fence.closedBy (lineContent l) = false) ∧
      fence.closedBy (lineContent closing) = true ∧
      rules.streamFrom pos ⟨start, some fence⟩ lines
        = ⟨.codeBlock, start,
            pos + byteLength skipped.flatten + byteLength (lineContent closing)⟩
          :: rules.streamFrom (pos + byteLength skipped.flatten + byteLength closing)
              ⟨pos + byteLength skipped.flatten + byteLength (lineContent closing), none⟩ rest) ∨
    ((∀ l ∈ lines, fence.closedBy (lineContent l) = false) ∧
      rules.streamFrom pos ⟨start, some fence⟩ lines
        = [⟨.codeBlock, start, pos + byteLength lines.flatten⟩]) := by
  induction lines generalizing pos with
  | nil => exact Or.inr ⟨by simp, rfl⟩
  | cons piece lines ih =>
    rw [HeadingRules.streamFrom_block_cons]
    cases hcloses : fence.closedBy (lineContent piece) with
    | true => exact Or.inl ⟨[], piece, lines, rfl, by simp, hcloses, rfl⟩
    | false =>
      rw [if_neg Bool.false_ne_true]
      rcases ih (pos + byteLength piece) with
        ⟨skipped, closing, rest, rfl, hskipped, hclosing, hstream⟩ | ⟨hnone, hstream⟩
      · refine Or.inl ⟨piece :: skipped, closing, rest, rfl, ?_, hclosing, ?_⟩
        · exact List.forall_mem_cons.2 ⟨hcloses, hskipped⟩
        · rw [hstream, List.flatten_cons, byteLength_append, ← Nat.add_assoc]
      · refine Or.inr ⟨List.forall_mem_cons.2 ⟨hcloses, hnone⟩, ?_⟩
        rw [hstream, List.flatten_cons, byteLength_append, ← Nat.add_assoc]

/-! ## Readings -/

/-- `rules.Reads pos start lines tokens`: reading the lines outside of any block gives the tokens,
    where the first line starts at byte `pos` and a stretch of other content at byte `start`. -/
inductive HeadingRules.Reads (rules : HeadingRules) : Nat → Nat → List Text → List Token → Prop
  /-- At the end the stretch ends too. -/
  | done (pos start : Nat) : Reads rules pos start [] (Token.stretch start pos)
  /-- A heading is a token of its own. -/
  | header {pos start level : Nat} {piece : Text} {rest : List Text} {tokens : List Token}
      (hkind : rules.classify (lineContent piece) = .header level)
      (h : Reads rules (pos + byteLength piece) (pos + byteLength (lineContent piece)) rest
        tokens) :
      Reads rules pos start (piece :: rest)
        (Token.stretch start pos ++
          ⟨.header level, pos, pos + byteLength (lineContent piece)⟩ :: tokens)
  /-- A block ends with the first line that closes it. -/
  | closed {pos start : Nat} {fence : Fence} {piece closing : Text} {skipped rest : List Text}
      {tokens : List Token} (hkind : rules.classify (lineContent piece) = .delimiter fence)
      (hskipped : ∀ l ∈ skipped, fence.closedBy (lineContent l) = false)
      (hclosing : fence.closedBy (lineContent closing) = true)
      (h : Reads rules (pos + byteLength piece + byteLength skipped.flatten + byteLength closing)
        (pos + byteLength piece + byteLength skipped.flatten + byteLength (lineContent closing))
        rest tokens) :
      Reads rules pos start (piece :: (skipped ++ closing :: rest))
        (Token.stretch start pos ++
          ⟨.codeBlock, pos, pos + byteLength piece + byteLength skipped.flatten
            + byteLength (lineContent closing)⟩ :: tokens)
  /-- A block that no line closes ends with the document. -/
  | unclosed {pos start : Nat} {fence : Fence} {piece : Text} {rest : List Text}
      (hkind : rules.classify (lineContent piece) = .delimiter fence)
      (hnone : ∀ l ∈ rest, fence.closedBy (lineContent l) = false) :
      Reads rules pos start (piece :: rest)
        (Token.stretch start pos ++
          [⟨.codeBlock, pos, pos + byteLength piece + byteLength rest.flatten⟩])
  /-- Other content belongs to the stretch. -/
  | other {pos start : Nat} {piece : Text} {rest : List Text} {tokens : List Token}
      (hkind : rules.classify (lineContent piece) = .other)
      (h : Reads rules (pos + byteLength piece) start rest tokens) :
      Reads rules pos start (piece :: rest) tokens

/-- Outside of blocks the stream is a reading. The induction is on the number of lines, since a
    block takes several at once. -/
theorem HeadingRules.streamFrom_reads (rules : HeadingRules) (n : Nat) :
    ∀ (lines : List Text) (pos start : Nat), lines.length ≤ n →
      rules.Reads pos start lines (rules.streamFrom pos ⟨start, none⟩ lines) := by
  induction n with
  | zero =>
    intro lines pos start hlen
    rw [List.eq_nil_of_length_eq_zero (Nat.le_zero.1 hlen)]
    exact .done pos start
  | succ n ih =>
    intro lines pos start hlen
    cases lines with
    | nil => exact .done pos start
    | cons piece rest =>
      rw [List.length_cons] at hlen
      cases hkind : rules.classify (lineContent piece) with
      | header level =>
        rw [rules.streamFrom_header _ _ _ _ hkind]
        exact .header hkind (ih _ _ _ (by omega))
      | other =>
        rw [rules.streamFrom_other _ _ _ _ hkind]
        exact .other hkind (ih _ _ _ (by omega))
      | delimiter fence =>
        rw [rules.streamFrom_delimiter _ _ _ _ hkind]
        rcases rules.streamFrom_block (pos + byteLength piece) pos fence rest with
          ⟨skipped, closing, rest, rfl, hskipped, hclosing, hstream⟩ | ⟨hnone, hstream⟩
        · rw [hstream]
          rw [List.length_append, List.length_cons] at hlen
          exact .closed hkind hskipped hclosing (ih _ _ _ (by omega))
        · rw [hstream]
          exact .unclosed hkind hnone

/-- The stream of a text is a reading of its lines. -/
theorem HeadingRules.stream_reads (rules : HeadingRules) (text : Text) :
    rules.Reads 0 0 (pieces text) (rules.stream text) :=
  rules.streamFrom_reads _ (pieces text) 0 0 (Nat.le_refl _)

end DocOutline
