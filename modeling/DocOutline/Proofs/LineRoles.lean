import DocOutline.Proofs.LineGrammar
import DocOutline.Proofs.Tiling

set_option autoImplicit false

/-! # What the token stream says about each line

Every line of a text plays exactly one role in the token stream: it stands inside a code block, it
is a heading, it opens a code block, or it is content. `LineRole.Plays` says what each role means
for the tokens, with the line given by the byte it starts at, its piece of the text and the lines
after it; what counts of a piece is what is left of it without the line feeds and carriage returns at
its end (`Text.stripped`). In turn every heading and every code block of the stream comes from a line that plays that
role (`HeadingRules.stream_roles`).

Whether a line plays the role that it would have on its own depends on the blocks before it. This
is settled by induction on the reading; that no line plays two roles follows from the tiling. -/

namespace DocOutline

open Text

/-! ## Blocks and the lines that close them -/

/-- A piece of a text without the line feeds and carriage returns at its end. -/
def Text.stripped (piece : Text) : Text := piece.rdropWhile fun c => c == '\n' || c == '\r'

theorem Text.lineContent_eq_stripped (piece : Text) : lineContent piece = stripped piece := rfl

/-- Where a block ends that a run of `marker` of the given width opened, if `lines` come after it
    and start at byte `pos` in a document of `length` bytes: with the content of the first line that
    closes it, or with the document. -/
def BlockEnds (marker : Char) (width length pos : Nat) (lines : List Text) (stop : Nat) : Prop :=
  (∃ skipped closing rest, lines = skipped ++ closing :: rest ∧
    (∀ l ∈ skipped, ¬ ClosesRun marker width (stripped l)) ∧
    ClosesRun marker width (stripped closing) ∧
    stop = pos + byteLength skipped.flatten + byteLength (stripped closing)) ∨
  ((∀ l ∈ lines, ¬ ClosesRun marker width (stripped l)) ∧ stop = length)

/-- What a line is that the rules take for a delimiter. -/
theorem HeadingRules.classify_delimiter {rules : HeadingRules} {line : Text} {fence : Fence}
    (h : rules.classify line = .delimiter fence) :
    ∃ tail, line = fence.marker :: tail ∧ fence.width = run fence.marker line := by
  have hshape := HeadingRules.classify_eq_delimiter_iff.1 h
  obtain ⟨tail, hline⟩ := List.head?_eq_some_iff.1 hshape.head?
  exact ⟨tail, hline, hshape.run_eq.symm⟩

/-! ## Roles -/

/-- The heading token of a line that starts at byte `pos`. -/
def HeadingRules.HeadingLine (rules : HeadingRules) (pos : Nat) (piece : Text) (token : Token) :
    Prop :=
  ∃ level, rules.classify (stripped piece) = .header level ∧
    token = ⟨.header level, pos, pos + byteLength (stripped piece)⟩

/-- The code block token of a line that starts at byte `pos` of a document of `length` bytes and
    that the lines `after` follow: the line is a delimiter, and the block ends at the first later
    line of its first character alone that is no shorter than its run of this character. -/
def HeadingRules.OpeningLine (rules : HeadingRules) (length pos : Nat) (piece : Text)
    (after : List Text) (token : Token) : Prop :=
  ∃ fence marker tail stop, rules.classify (stripped piece) = .delimiter fence ∧
    stripped piece = marker :: tail ∧
    BlockEnds marker (run marker (stripped piece)) length (pos + byteLength piece) after stop ∧
    token = ⟨.codeBlock, pos, stop⟩

/-- What a line can be in a token stream. -/
inductive LineRole where
  /-- The line starts inside a code block; it may be the one that closes it. -/
  | inside
  /-- The line is a heading. -/
  | heading
  /-- The line opens a code block. -/
  | opening
  /-- The line is other content. -/
  | content
  deriving DecidableEq, Repr

/-- A line plays a role in a list of tokens. The line starts at byte `pos` of a document of `length`
    bytes, and the lines `after` follow it. -/
def LineRole.Plays (rules : HeadingRules) (tokens : List Token) (length pos : Nat) (piece : Text)
    (after : List Text) : LineRole → Prop
  | .inside => ∃ token ∈ tokens, token.kind = .codeBlock ∧ token.start < pos ∧ pos < token.stop
  | .heading => ∃ token ∈ tokens, rules.HeadingLine pos piece token
  | .opening => ∃ token ∈ tokens, rules.OpeningLine length pos piece after token
  | .content => rules.classify (stripped piece) = .other ∧
      ∃ token ∈ tokens, token.kind = .other ∧ token.start ≤ pos ∧ pos < token.stop

theorem LineRole.Plays.mono {rules : HeadingRules} {tokens tokens' : List Token} {length pos : Nat}
    {piece : Text} {after : List Text} {role : LineRole}
    (h : role.Plays rules tokens length pos piece after) (hsub : tokens ⊆ tokens') :
    role.Plays rules tokens' length pos piece after := by
  cases role with
  | inside => exact h.imp fun _ hmem => ⟨hsub hmem.1, hmem.2⟩
  | heading => exact h.imp fun _ hmem => ⟨hsub hmem.1, hmem.2⟩
  | opening => exact h.imp fun _ hmem => ⟨hsub hmem.1, hmem.2⟩
  | content => exact ⟨h.1, h.2.imp fun _ hmem => ⟨hsub hmem.1, hmem.2⟩⟩

/-- The block of a delimiter ends as its fence says. -/
theorem HeadingRules.openingLine_of_blockEnds {rules : HeadingRules} {length pos stop : Nat}
    {piece : Text} {after : List Text} {fence : Fence}
    (hkind : rules.classify (lineContent piece) = .delimiter fence)
    (hends : BlockEnds fence.marker fence.width length (pos + byteLength piece) after stop) :
    rules.OpeningLine length pos piece after ⟨.codeBlock, pos, stop⟩ := by
  obtain ⟨tail, hline, hwidth⟩ := HeadingRules.classify_delimiter hkind
  rw [hwidth] at hends
  exact ⟨fence, fence.marker, tail, stop, hkind, hline, hends, rfl⟩

theorem BlockEnds.of_closed {fence : Fence} {skipped rest : List Text} {closing : Text}
    (hskipped : ∀ l ∈ skipped, fence.closedBy (lineContent l) = false)
    (hclosing : fence.closedBy (lineContent closing) = true) (length pos : Nat) :
    BlockEnds fence.marker fence.width length pos (skipped ++ closing :: rest)
      (pos + byteLength skipped.flatten + byteLength (lineContent closing)) := by
  simp only [lineContent_eq_stripped] at hskipped hclosing ⊢
  refine Or.inl ⟨skipped, closing, rest, rfl, fun l hl hcloses => ?_, ?_, rfl⟩
  · rw [← Fence.closedBy_iff, hskipped l hl] at hcloses
    exact Bool.false_ne_true hcloses
  · rwa [← Fence.closedBy_iff]

theorem BlockEnds.of_unclosed {fence : Fence} {lines : List Text}
    (hnone : ∀ l ∈ lines, fence.closedBy (lineContent l) = false) (length pos : Nat) :
    BlockEnds fence.marker fence.width length pos lines length := by
  simp only [lineContent_eq_stripped] at hnone
  refine Or.inr ⟨fun l hl hcloses => ?_, rfl⟩
  rw [← Fence.closedBy_iff, hnone l hl] at hcloses
  exact Bool.false_ne_true hcloses

/-! ## Every heading and every block comes from a line -/

/-- A token of a reading that is no stretch of other content is the heading or the block of a
    line. -/
theorem HeadingRules.Reads.exists_line {rules : HeadingRules} {pos start : Nat} {lines : List Text}
    {tokens : List Token} (h : rules.Reads pos start lines tokens) (length : Nat)
    (hlength : length = pos + byteLength lines.flatten) (token : Token) (hmem : token ∈ tokens)
    (hother : token.kind ≠ .other) :
    ∃ before piece after, lines = before ++ piece :: after ∧
      (rules.HeadingLine (pos + byteLength before.flatten) piece token ∨
        rules.OpeningLine length (pos + byteLength before.flatten) piece after token) := by
  induction h with
  | done pos start => exact absurd (Token.kind_of_mem_stretch hmem) hother
  | @header pos start level piece rest tokens hkind _ ih =>
    rw [byteLength_flatten_cons] at hlength
    rcases Token.mem_of_mem_stretch_append hmem hother with rfl | hmem
    · exact ⟨[], piece, rest, rfl, Or.inl ⟨level, hkind, rfl⟩⟩
    · obtain ⟨before, line, after, rfl, hline⟩ := ih hlength hmem
      rw [← byteLength_flatten_cons] at hline
      exact ⟨piece :: before, line, after, rfl, hline⟩
  | @closed pos start fence piece closing skipped rest tokens hkind hskipped hclosing _ ih =>
    rw [byteLength_flatten_cons, byteLength_flatten_append_cons] at hlength
    rcases Token.mem_of_mem_stretch_append hmem hother with rfl | hmem
    · exact ⟨[], piece, skipped ++ closing :: rest, rfl, Or.inr
        (HeadingRules.openingLine_of_blockEnds hkind (.of_closed hskipped hclosing length _))⟩
    · obtain ⟨before, line, after, rfl, hline⟩ := ih hlength hmem
      rw [← byteLength_flatten_append_cons, ← byteLength_flatten_cons] at hline
      exact ⟨piece :: (skipped ++ closing :: before), line, after, by simp, hline⟩
  | @unclosed pos start fence piece rest hkind hnone =>
    rw [byteLength_flatten_cons] at hlength
    rcases Token.mem_of_mem_stretch_append hmem hother with rfl | hmem
    · rw [← hlength]
      exact ⟨[], piece, rest, rfl, Or.inr
        (HeadingRules.openingLine_of_blockEnds hkind (.of_unclosed hnone length _))⟩
    · exact absurd hmem (by simp)
  | @other pos start piece rest tokens _ _ ih =>
    rw [byteLength_flatten_cons] at hlength
    obtain ⟨before, line, after, rfl, hline⟩ := ih hlength hmem
    rw [← byteLength_flatten_cons] at hline
    exact ⟨piece :: before, line, after, rfl, hline⟩

/-- A token of a stream that is no stretch of other content starts with a line of the text, and a
    header covers the content of the line. -/
theorem HeadingRules.exists_line_of_mem {rules : HeadingRules} {text : Text} {token : Token}
    (hmem : token ∈ rules.stream text) (hother : token.kind ≠ .other) :
    ∃ before piece after, pieces text = before ++ piece :: after ∧
      token.start = byteLength before.flatten ∧
      (token.kind.isHeader = true → token.text text = lineContent piece) := by
  obtain ⟨before, piece, after, hlines, hline⟩ :=
    (rules.stream_reads text).exists_line _ rfl token hmem hother
  rw [Nat.zero_add] at hline
  refine ⟨before, piece, after, hlines, ?_⟩
  rcases hline with ⟨level, -, rfl⟩ | ⟨_, _, _, _, -, -, -, rfl⟩
  · refine ⟨rfl, fun _ => ?_⟩
    obtain ⟨ending, hpiece⟩ := exists_lineContent_append piece
    have htext : text = before.flatten ++ (lineContent piece ++ (ending ++ after.flatten)) := by
      rw [← List.append_assoc (lineContent piece), ← hpiece, ← List.flatten_cons,
        ← List.flatten_append, ← hlines, flatten_pieces]
    exact Token.text_of_append htext rfl rfl
  · exact ⟨rfl, fun hheader => absurd hheader Bool.false_ne_true⟩

theorem TokenKind.ne_other_of_isHeader {kind : TokenKind} (h : kind.isHeader = true) :
    kind ≠ .other := by
  rintro rfl
  exact Bool.false_ne_true h

/-! ## Every line plays a role -/

/-- A stretch of other content that has begun is the next token, and goes on at least to the line
    that is read next. -/
theorem HeadingRules.Reads.exists_stretch {rules : HeadingRules} {pos start : Nat}
    {lines : List Text} {tokens : List Token} (h : rules.Reads pos start lines tokens)
    (hstart : start < pos) : ∃ stop, ⟨.other, start, stop⟩ ∈ tokens ∧ pos ≤ stop := by
  induction h with
  | done pos start =>
    have hmem := Token.mem_stretch_append hstart []
    rw [List.append_nil] at hmem
    exact ⟨pos, hmem, Nat.le_refl pos⟩
  | header => exact ⟨_, Token.mem_stretch_append hstart _, Nat.le_refl _⟩
  | closed => exact ⟨_, Token.mem_stretch_append hstart _, Nat.le_refl _⟩
  | unclosed => exact ⟨_, Token.mem_stretch_append hstart _, Nat.le_refl _⟩
  | other _ _ ih =>
    obtain ⟨stop, hmem, hstop⟩ := ih (by omega)
    exact ⟨stop, hmem, by omega⟩

/-- A line that comes after the first line of a block and before its end stands inside it. -/
theorem LineRole.plays_inside {rules : HeadingRules} {tokens : List Token}
    {length start pos stop : Nat} {piece line : Text} {before after : List Text}
    (hpiece : piece ≠ [])
    (hstop : pos + byteLength piece + byteLength before.flatten < stop) :
    LineRole.inside.Plays rules (Token.stretch start pos ++ ⟨.codeBlock, pos, stop⟩ :: tokens)
      length (pos + byteLength (piece :: before).flatten) line after := by
  have hpos := byteLength_pos hpiece
  rw [byteLength_flatten_cons]
  refine ⟨⟨.codeBlock, pos, stop⟩, by simp, rfl, ?_, hstop⟩
  show pos < _
  omega

/-- Every line plays a role in the tokens of a reading. -/
theorem HeadingRules.Reads.exists_role {rules : HeadingRules} {pos start : Nat} {lines : List Text}
    {tokens : List Token} (h : rules.Reads pos start lines tokens) (hstart : start ≤ pos)
    (hne : ∀ l ∈ lines, l ≠ []) (length : Nat) (hlength : length = pos + byteLength lines.flatten)
    (before : List Text) (line : Text) (after : List Text)
    (hlines : lines = before ++ line :: after) :
    ∃ role : LineRole,
      role.Plays rules tokens length (pos + byteLength before.flatten) line after := by
  induction h generalizing before with
  | done pos start => simp at hlines
  | @header pos start level piece rest tokens hkind _ ih =>
    obtain ⟨-, hne⟩ := List.forall_mem_cons.1 hne
    rw [byteLength_flatten_cons] at hlength
    rcases List.cons_eq_append_iff.1 hlines with ⟨rfl, hfirst⟩ | ⟨before, rfl, hrest⟩
    · obtain ⟨rfl, rfl⟩ := List.cons.inj hfirst
      exact ⟨.heading, _, by simp [lineContent_eq_stripped], level, hkind, rfl⟩
    · have hle := byteLength_lineContent_le piece
      obtain ⟨role, hrole⟩ := ih (by omega) hne hlength before hrest
      rw [← byteLength_flatten_cons] at hrole
      exact ⟨role, hrole.mono (by simp)⟩
  | @closed pos start fence piece closing skipped rest tokens hkind hskipped hclosing _ ih =>
    obtain ⟨hpiece, hne⟩ := List.forall_mem_cons.1 hne
    rw [byteLength_flatten_cons, byteLength_flatten_append_cons] at hlength
    have hcontent := byteLength_pos (Fence.ne_nil_of_closedBy hclosing)
    rcases List.cons_eq_append_iff.1 hlines with ⟨rfl, hfirst⟩ | ⟨before, rfl, hrest⟩
    · obtain ⟨rfl, rfl⟩ := List.cons.inj hfirst
      exact ⟨.opening, _, by simp,
        HeadingRules.openingLine_of_blockEnds hkind (.of_closed hskipped hclosing length _)⟩
    · -- the line closes the block or comes after it, or it is one of those that the block skips
      rcases List.append_eq_append_iff.1 hrest with ⟨more, rfl, hmore⟩ | ⟨more, rfl, hmore⟩
      · rcases List.cons_eq_append_iff.1 hmore with ⟨rfl, hclosed⟩ | ⟨more, rfl, hpast⟩
        · refine ⟨.inside, LineRole.plays_inside hpiece ?_⟩
          rw [List.append_nil]
          omega
        · have hle := byteLength_lineContent_le closing
          have hne' : ∀ l ∈ rest, l ≠ [] := fun l hl => hne l (by simp [hl])
          obtain ⟨role, hrole⟩ := ih (by omega) hne' hlength more hpast
          rw [← byteLength_flatten_append_cons, ← byteLength_flatten_cons] at hrole
          exact ⟨role, hrole.mono (by simp)⟩
      · refine ⟨.inside, LineRole.plays_inside hpiece ?_⟩
        rw [List.flatten_append, byteLength_append]
        omega
  | @unclosed pos start fence piece rest hkind hnone =>
    obtain ⟨hpiece, hne⟩ := List.forall_mem_cons.1 hne
    rw [byteLength_flatten_cons] at hlength
    rcases List.cons_eq_append_iff.1 hlines with ⟨rfl, hfirst⟩ | ⟨before, rfl, rfl⟩
    · obtain ⟨rfl, rfl⟩ := List.cons.inj hfirst
      exact ⟨.opening, ⟨.codeBlock, pos, length⟩, by rw [hlength]; simp,
        HeadingRules.openingLine_of_blockEnds hkind (.of_unclosed hnone length _)⟩
    · have hline := byteLength_pos (hne line (by simp))
      refine ⟨.inside, LineRole.plays_inside hpiece ?_⟩
      rw [byteLength_flatten_append_cons]
      omega
  | @other pos start piece rest tokens hkind hrest ih =>
    obtain ⟨hpiece, hne⟩ := List.forall_mem_cons.1 hne
    have hpos := byteLength_pos hpiece
    rw [byteLength_flatten_cons] at hlength
    rcases List.cons_eq_append_iff.1 hlines with ⟨rfl, hfirst⟩ | ⟨before, rfl, hafter⟩
    · -- the line belongs to a stretch that has begun before it or begins with it
      obtain ⟨rfl, rfl⟩ := List.cons.inj hfirst
      obtain ⟨stop, hmem, hstop⟩ := hrest.exists_stretch (by omega)
      refine ⟨.content, hkind, _, hmem, rfl, hstart, ?_⟩
      show pos + 0 < stop
      omega
    · obtain ⟨role, hrole⟩ := ih (by omega) hne hlength before hafter
      rw [← byteLength_flatten_cons] at hrole
      exact ⟨role, hrole⟩

/-! ## No line plays two roles -/

/-- The role of a line that starts at byte `pos`, read off the token with this byte. -/
def LineRole.ofToken (pos : Nat) (token : Token) : LineRole :=
  match token.kind with
  | .header _ => .heading
  | .codeBlock => if token.start < pos then .inside else .opening
  | .other => .content

/-- The token that a role speaks of has the first byte of the line, and tells the role. -/
theorem LineRole.Plays.exists_token {rules : HeadingRules} {tokens : List Token}
    (hstop : ∀ token ∈ tokens, token.start < token.stop) {length pos : Nat} {piece : Text}
    {after : List Text} {role : LineRole} (h : role.Plays rules tokens length pos piece after) :
    ∃ token ∈ tokens, (token.start ≤ pos ∧ pos < token.stop) ∧
      role = LineRole.ofToken pos token := by
  cases role with
  | inside =>
    obtain ⟨token, hmem, hkind, hbefore, hafter⟩ := h
    refine ⟨token, hmem, ⟨Nat.le_of_lt hbefore, hafter⟩, ?_⟩
    rw [LineRole.ofToken, hkind]
    exact (if_pos hbefore).symm
  | heading =>
    obtain ⟨token, hmem, level, -, rfl⟩ := h
    exact ⟨_, hmem, ⟨Nat.le_refl pos, hstop _ hmem⟩, rfl⟩
  | opening =>
    obtain ⟨token, hmem, fence, marker, tail, stop, -, -, -, rfl⟩ := h
    exact ⟨_, hmem, ⟨Nat.le_refl pos, hstop _ hmem⟩, (if_neg (Nat.lt_irrefl pos)).symm⟩
  | content =>
    obtain ⟨-, token, hmem, hkind, hspan⟩ := h
    exact ⟨token, hmem, hspan, by rw [LineRole.ofToken, hkind]⟩

theorem LineRole.Plays.unique {rules : HeadingRules} {tokens : List Token} {start : Nat} {t : Text}
    (hcovers : Token.Covers start tokens t) {length pos : Nat} {piece : Text} {after : List Text}
    {role role' : LineRole} (h : role.Plays rules tokens length pos piece after)
    (h' : role'.Plays rules tokens length pos piece after) : role = role' := by
  obtain ⟨token, hmem, hspan, hrole⟩ := h.exists_token hcovers.start_lt_stop
  obtain ⟨token', hmem', hspan', hrole'⟩ := h'.exists_token hcovers.start_lt_stop
  rw [hrole, hrole', hcovers.eq_of_mem_span hmem hmem' hspan hspan']

/-- **Lines and tokens.** For every text and all rules, each line of the text plays exactly one role
    in the token stream, and every heading and every code block of the stream comes from a line. -/
theorem HeadingRules.stream_roles (rules : HeadingRules) (text : Text) :
    (∀ before piece after, pieces text = before ++ piece :: after →
      ∃! role : LineRole, role.Plays rules (rules.stream text) (byteLength text)
        (byteLength before.flatten) piece after) ∧
    ∀ token ∈ rules.stream text, token.kind ≠ .other →
      ∃ before piece after, pieces text = before ++ piece :: after ∧
        (rules.HeadingLine (byteLength before.flatten) piece token ∨
          rules.OpeningLine (byteLength text) (byteLength before.flatten) piece after token) := by
  have hreads := rules.stream_reads text
  have hlength : byteLength text = 0 + byteLength (pieces text).flatten := by
    rw [flatten_pieces, Nat.zero_add]
  constructor
  · intro before piece after hlines
    obtain ⟨role, hrole⟩ := hreads.exists_role (Nat.le_refl 0) (ne_nil_of_mem_pieces text) _ hlength
      before piece after hlines
    rw [Nat.zero_add] at hrole
    exact ⟨role, hrole, fun other hother => hother.unique (rules.stream_covers text) hrole⟩
  · intro token hmem hother
    obtain ⟨before, piece, after, hlines, hline⟩ := hreads.exists_line _ hlength token hmem hother
    rw [Nat.zero_add] at hline
    exact ⟨before, piece, after, hlines, hline⟩

/-- A line that would be a heading, after a delimiter and before a run that is too short to close
    the block: it stands inside the block, and plays no other role. -/
theorem HeadingRules.stream_roles_fenced :
    let text := ['-', '-', '-', '-', '-', '\n', '=', ' ', 'x', '\n', '-', '-', '-', '-']
    let before : List Text := [['-', '-', '-', '-', '-', '\n']]
    let after : List Text := [['-', '-', '-', '-']]
    pieces text = before ++ ['=', ' ', 'x', '\n'] :: after ∧
    ∀ role : LineRole, role.Plays {} (HeadingRules.stream {} text) (byteLength text)
      (byteLength before.flatten) ['=', ' ', 'x', '\n'] after ↔ role = .inside := by
  intro text before after
  have hlines : pieces text = before ++ ['=', ' ', 'x', '\n'] :: after := by decide
  obtain ⟨only, honly, hunique⟩ := (HeadingRules.stream_roles {} text).1 _ _ _ hlines
  have hinside : LineRole.inside.Plays {} (HeadingRules.stream {} text) (byteLength text)
      (byteLength before.flatten) ['=', ' ', 'x', '\n'] after := by
    refine ⟨⟨.codeBlock, 0, 14⟩, by decide, rfl, ?_, ?_⟩
    · decide
    · decide
  refine ⟨hlines, fun role => ⟨fun hrole => ?_, ?_⟩⟩
  · rw [hunique role hrole, hunique .inside hinside]
  · rintro rfl
    exact hinside

end DocOutline
