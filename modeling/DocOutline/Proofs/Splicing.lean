import DocOutline.Proofs.Lines
import DocOutline.Proofs.Reading

set_option autoImplicit false

/-! # The token stream of a text in two parts

Between two lines the only thing that reading carries on is the unfinished token. What one line
does to it, and which tokens it completes, is `HeadingRules.readLine`; the stream is made of these
steps (`HeadingRules.streamFrom_cons`), and each fact below is proved of one step and then of a run.

* Only the contents of lines and differences of offsets matter (`HeadingRules.streamFrom_relocate`).
* After a text that leaves no block open, the second text is read as on its own, but for where its
  first stretch of other content starts (`HeadingRules.stream_append`).
* Before a heading nothing is carried on, so that a stream can be cut there
  (`HeadingRules.exists_cut_of_header`). -/

namespace DocOutline

open Text

/-! ## One line -/

/-- Reads one line, which starts at byte `pos`: the tokens that it completes, and the token that is
    unfinished after it. -/
def HeadingRules.readLine (rules : HeadingRules) (pos : Nat) (p : Pending) (piece : Text) :
    List Token × Pending :=
  let line := lineContent piece
  let stop := pos + byteLength line
  match p.fence with
  | some fence =>
    if fence.closedBy line then ([⟨.codeBlock, p.start, stop⟩], ⟨stop, none⟩) else ([], p)
  | none =>
    match rules.classify line with
    | .header level => (Token.stretch p.start pos ++ [⟨.header level, pos, stop⟩], ⟨stop, none⟩)
    | .delimiter fence => (Token.stretch p.start pos, ⟨pos, some fence⟩)
    | .other => ([], p)

section ReadLine

variable (rules : HeadingRules) (pos start : Nat) {piece : Text}

theorem HeadingRules.readLine_of_header {level : Nat}
    (h : rules.classify (lineContent piece) = .header level) :
    rules.readLine pos ⟨start, none⟩ piece
      = (Token.stretch start pos ++ [⟨.header level, pos, pos + byteLength (lineContent piece)⟩],
          ⟨pos + byteLength (lineContent piece), none⟩) := by
  simp only [HeadingRules.readLine, h]

theorem HeadingRules.readLine_of_delimiter {fence : Fence}
    (h : rules.classify (lineContent piece) = .delimiter fence) :
    rules.readLine pos ⟨start, none⟩ piece = (Token.stretch start pos, ⟨pos, some fence⟩) := by
  simp only [HeadingRules.readLine, h]

theorem HeadingRules.readLine_of_other (h : rules.classify (lineContent piece) = .other) :
    rules.readLine pos ⟨start, none⟩ piece = ([], ⟨start, none⟩) := by
  simp only [HeadingRules.readLine, h]

end ReadLine

/-- The stream goes on from what the first line leaves unfinished. -/
theorem HeadingRules.streamFrom_cons (rules : HeadingRules) (pos : Nat) (p : Pending) (piece : Text)
    (rest : List Text) :
    rules.streamFrom pos p (piece :: rest)
      = (rules.readLine pos p piece).1
        ++ rules.streamFrom (pos + byteLength piece) (rules.readLine pos p piece).2 rest := by
  obtain ⟨start, fence⟩ := p
  unfold HeadingRules.readLine
  cases fence with
  | some fence =>
    rw [HeadingRules.streamFrom_block_cons]
    dsimp only
    split <;> rfl
  | none =>
    dsimp only
    cases hkind : rules.classify (lineContent piece) with
    | header level =>
      rw [rules.streamFrom_header _ _ _ _ hkind, List.append_assoc, List.singleton_append]
    | delimiter fence => rw [rules.streamFrom_delimiter _ _ _ _ hkind]
    | other => rw [rules.streamFrom_other _ _ _ _ hkind, List.nil_append]

/-! ## Moving a text -/

/-- A token with other offsets. -/
def Token.relocate (g : Nat → Nat) (t : Token) : Token := ⟨t.kind, g t.start, g t.stop⟩

/-- An unfinished token with another offset. -/
def Pending.relocate (g : Nat → Nat) (p : Pending) : Pending := ⟨g p.start, p.fence⟩

/-- `Text.Moved g pos lines lines'`: the two lists of lines have the same contents, and `g` gives
    the offsets of the second list for those of the first, which starts at byte `pos`. -/
inductive Text.Moved (g : Nat → Nat) : Nat → List Text → List Text → Prop
  | nil (pos : Nat) : Moved g pos [] []
  | cons {pos : Nat} {piece piece' : Text} {rest rest' : List Text}
      (hcontent : lineContent piece' = lineContent piece)
      (hstop : g (pos + byteLength (lineContent piece)) = g pos + byteLength (lineContent piece))
      (hnext : g (pos + byteLength piece) = g pos + byteLength piece')
      (h : Moved g (pos + byteLength piece) rest rest') :
      Moved g pos (piece :: rest) (piece' :: rest')

section Relocate

variable {g : Nat → Nat} (hg : ∀ a b, g a < g b ↔ a < b)

include hg

theorem Token.map_relocate_stretch (start stop : Nat) :
    (Token.stretch start stop).map (Token.relocate g) = Token.stretch (g start) (g stop) := by
  unfold Token.stretch
  by_cases h : start < stop
  · rw [if_pos h, if_pos ((hg _ _).2 h)]
    rfl
  · rw [if_neg h, if_neg (mt (hg _ _).1 h)]
    rfl

theorem Pending.map_relocate_finish (p : Pending) (stop : Nat) :
    (p.finish stop).map (Token.relocate g) = (p.relocate g).finish (g stop) := by
  obtain ⟨start, fence⟩ := p
  cases fence with
  | some fence => rfl
  | none => exact Token.map_relocate_stretch hg start stop

/-- A line with the same content at another offset completes the same tokens there. -/
theorem HeadingRules.readLine_relocate (rules : HeadingRules) {pos : Nat} {piece piece' : Text}
    (hcontent : lineContent piece' = lineContent piece)
    (hstop : g (pos + byteLength (lineContent piece)) = g pos + byteLength (lineContent piece))
    (p : Pending) :
    rules.readLine (g pos) (p.relocate g) piece'
      = ((rules.readLine pos p piece).1.map (Token.relocate g),
          (rules.readLine pos p piece).2.relocate g) := by
  obtain ⟨start, fence⟩ := p
  unfold HeadingRules.readLine Pending.relocate
  rw [hcontent]
  cases fence with
  | some fence =>
    dsimp only
    split
    · rw [← hstop]
      rfl
    · rfl
  | none =>
    dsimp only
    cases rules.classify (lineContent piece) with
    | header level =>
      dsimp only
      rw [List.map_append, Token.map_relocate_stretch hg, ← hstop]
      rfl
    | delimiter fence =>
      dsimp only
      rw [Token.map_relocate_stretch hg]
    | other => rfl

/-- Lines with the same contents at other offsets give the same tokens there. -/
theorem HeadingRules.streamFrom_relocate (rules : HeadingRules) {pos : Nat}
    {lines lines' : List Text} (h : Text.Moved g pos lines lines') (p : Pending) :
    rules.streamFrom (g pos) (p.relocate g) lines'
      = (rules.streamFrom pos p lines).map (Token.relocate g) := by
  induction h generalizing p with
  | nil pos => exact (p.map_relocate_finish hg pos).symm
  | cons hcontent hstop hnext _ ih =>
    rw [HeadingRules.streamFrom_cons, HeadingRules.streamFrom_cons,
      rules.readLine_relocate hg hcontent hstop, List.map_append, ← ih, hnext]

end Relocate

/-- The token `n` bytes further on. -/
def Token.shift (n : Nat) (t : Token) : Token := ⟨t.kind, t.start + n, t.stop + n⟩

@[simp] theorem Token.shift_zero : Token.shift 0 = id := rfl

/-- The same lines further on. -/
theorem Text.moved_add (n pos : Nat) (lines : List Text) : Text.Moved (· + n) pos lines lines := by
  induction lines generalizing pos with
  | nil => exact .nil pos
  | cons piece lines ih =>
    exact .cons rfl (Nat.add_right_comm ..) (Nat.add_right_comm ..) (ih (pos + byteLength piece))

/-- A text that is read from byte `n` on, with nothing unfinished before it. -/
theorem HeadingRules.map_shift_stream (rules : HeadingRules) (n : Nat) (t : Text) :
    (rules.stream t).map (Token.shift n) = rules.streamFrom n ⟨n, none⟩ (pieces t) := by
  have h := rules.streamFrom_relocate (fun a b => Nat.add_lt_add_iff_right)
    (Text.moved_add n 0 (pieces t)) ⟨0, none⟩
  rw [Pending.relocate, Nat.zero_add] at h
  exact h.symm

/-! ## Reading on -/

/-- After a line that ends with a line break, the unfinished token has at least one byte. -/
theorem HeadingRules.readLine_start_lt (rules : HeadingRules) {pos : Nat} {p : Pending}
    {piece : Text} (hstart : p.start ≤ pos)
    (hpiece : byteLength (lineContent piece) < byteLength piece) :
    (rules.readLine pos p piece).2.start < pos + byteLength piece := by
  unfold HeadingRules.readLine
  dsimp only
  cases p.fence with
  | some fence =>
    dsimp only
    split
    · exact Nat.add_lt_add_left hpiece pos
    · show p.start < _
      omega
  | none =>
    dsimp only
    cases rules.classify (lineContent piece) with
    | header level => exact Nat.add_lt_add_left hpiece pos
    | delimiter fence =>
      show pos < _
      omega
    | other =>
      show p.start < _
      omega

/-- Reading some lines and then more: the first ones complete some tokens and leave one unfinished,
    from which the others go on. -/
theorem HeadingRules.exists_streamFrom_append (rules : HeadingRules) {pos : Nat} {p : Pending}
    (lines : List Text) (hstart : p.start ≤ pos)
    (hlines : ∀ l ∈ lines, byteLength (lineContent l) < byteLength l) :
    ∃ front q, (lines = [] ∧ q = p ∨ q.start < pos + byteLength lines.flatten) ∧
      ∀ more, rules.streamFrom pos p (lines ++ more)
        = front ++ rules.streamFrom (pos + byteLength lines.flatten) q more := by
  induction lines generalizing pos p with
  | nil => exact ⟨[], p, Or.inl ⟨rfl, rfl⟩, fun more => rfl⟩
  | cons piece lines ih =>
    obtain ⟨hpiece, hlines⟩ := List.forall_mem_cons.1 hlines
    have hnext := rules.readLine_start_lt hstart hpiece
    obtain ⟨front, q, hq, hmore⟩ := ih (Nat.le_of_lt hnext) hlines
    refine ⟨(rules.readLine pos p piece).1 ++ front, q, Or.inr ?_, fun more => ?_⟩
    · rw [byteLength_flatten_cons]
      rcases hq with ⟨rfl, rfl⟩ | hq
      · exact hnext
      · exact hq
    · rw [List.cons_append, HeadingRules.streamFrom_cons, hmore, List.append_assoc,
        byteLength_flatten_cons]

/-- Where the stretch of other content starts that is being read has no influence but on the first
    token. -/
theorem HeadingRules.exists_streamFrom_stretch (rules : HeadingRules) (pos : Nat)
    (lines : List Text) :
    ∃ stop rest, pos ≤ stop ∧ (∀ t ∈ rest.head?, t.kind ≠ .other) ∧
      ∀ start, rules.streamFrom pos ⟨start, none⟩ lines = Token.stretch start stop ++ rest := by
  induction lines generalizing pos with
  | nil => exact ⟨pos, [], Nat.le_refl pos, by simp, fun start => (List.append_nil _).symm⟩
  | cons piece lines ih =>
    cases hkind : rules.classify (lineContent piece) with
    | header level =>
      exact ⟨pos, _, Nat.le_refl pos, by simp,
        fun start => rules.streamFrom_header pos start piece lines hkind⟩
    | delimiter fence =>
      refine ⟨pos, _, Nat.le_refl pos, ?_,
        fun start => rules.streamFrom_delimiter pos start piece lines hkind⟩
      -- the block that the line opens is the next token, whether or not it is closed
      rcases rules.streamFrom_block (pos + byteLength piece) pos fence lines with
        ⟨_, _, _, -, -, -, hstream⟩ | ⟨-, hstream⟩ <;> simp [hstream]
    | other =>
      obtain ⟨stop, rest, hstop, hrest, hstream⟩ := ih (pos + byteLength piece)
      refine ⟨stop, rest, by omega, hrest, fun start => ?_⟩
      rw [rules.streamFrom_other _ _ _ _ hkind, hstream]

/-- Nothing is left open at the end of the text: it is empty, or it ends with a line feed and the
    last token of its stream is no code block. -/
def HeadingRules.Settled (rules : HeadingRules) (t : Text) : Prop :=
  t = [] ∨ (t.getLast? = some '\n' ∧ ∀ token ∈ (rules.stream t).getLast?, token.kind ≠ .codeBlock)

/-- A text that leaves nothing open gives some tokens and has begun a stretch of other content,
    which has at least one byte unless the text is empty. Any other text can be read on. -/
theorem HeadingRules.Settled.exists_front {rules : HeadingRules} {a : Text} (ha : rules.Settled a) :
    ∃ front start, (front = [] ∧ start = byteLength a ∨ start < byteLength a) ∧
      ∀ b, rules.stream (a ++ b)
        = front ++ rules.streamFrom (byteLength a) ⟨start, none⟩ (pieces b) := by
  rcases ha with rfl | ⟨hend, hlast⟩
  · exact ⟨[], 0, Or.inl ⟨rfl, rfl⟩, fun b => rfl⟩
  · have hlines : ∀ l ∈ pieces a, byteLength (lineContent l) < byteLength l := fun l hl =>
      byteLength_lineContent_lt (getLast?_of_mem_pieces hend l hl)
    obtain ⟨front, ⟨start, fence⟩, hstart, hmore⟩ :=
      rules.exists_streamFrom_append (p := ⟨0, none⟩) (pieces a) (Nat.le_refl 0) hlines
    rw [flatten_pieces, Nat.zero_add] at hmore hstart
    have hne : pieces a ≠ [] := by
      rw [ne_eq, pieces_eq_nil_iff]
      rintro rfl
      simp at hend
    cases fence with
    | some fence =>
      -- an open block would be the last token
      have hstream := hmore []
      rw [List.append_nil] at hstream
      rw [HeadingRules.stream, hstream] at hlast
      exact absurd rfl (hlast ⟨.codeBlock, start, byteLength a⟩
        (by simp [HeadingRules.streamFrom, Pending.finish]))
    | none =>
      refine ⟨front, start, Or.inr ?_, fun b => ?_⟩
      · exact hstart.resolve_left fun h => hne h.1
      · rw [HeadingRules.stream, pieces_append hend, hmore]

/-- The streams of a text that leaves nothing open, of another one and of both together, in parts:
    they differ in the stretches of other content around the seam. -/
theorem HeadingRules.Settled.exists_parts {rules : HeadingRules} {a : Text} (ha : rules.Settled a)
    (b : Text) :
    ∃ front start stop rest,
      (front = [] ∧ start = byteLength a ∨ start < byteLength a) ∧ byteLength a ≤ stop ∧
      (∀ t ∈ rest.head?, t.kind ≠ .other) ∧
      rules.stream a = front ++ Token.stretch start (byteLength a) ∧
      (rules.stream b).map (Token.shift (byteLength a))
        = Token.stretch (byteLength a) stop ++ rest ∧
      rules.stream (a ++ b) = front ++ (Token.stretch start stop ++ rest) := by
  obtain ⟨front, start, hstart, happend⟩ := ha.exists_front
  obtain ⟨stop, rest, hstop, hrest, hstream⟩ :=
    rules.exists_streamFrom_stretch (byteLength a) (pieces b)
  refine ⟨front, start, stop, rest, hstart, hstop, hrest, ?_, ?_, ?_⟩
  · have hnil := happend []
    rwa [List.append_nil] at hnil
  · rw [HeadingRules.map_shift_stream, hstream]
  · rw [happend, hstream]

/-! ## Joining two streams -/

/-- Two lists of tokens one after the other; if two stretches of other content meet, they become a
    single one that spans both. -/
def Token.join (front back : List Token) : List Token :=
  match front.getLast?, back with
  | some ⟨.other, start, _⟩, ⟨.other, _, stop⟩ :: rest =>
    front.dropLast ++ ⟨.other, start, stop⟩ :: rest
  | _, _ => front ++ back

theorem Token.join_nil (back : List Token) : Token.join [] back = back := rfl

theorem Token.join_of_head {back : List Token} (h : ∀ t ∈ back.head?, t.kind ≠ .other)
    (front : List Token) : Token.join front back = front ++ back := by
  unfold Token.join
  split
  · exact absurd rfl (h _ rfl)
  · rfl

theorem Token.join_other (front rest : List Token) (start stop start' stop' : Nat) :
    Token.join (front ++ [⟨.other, start, stop⟩]) (⟨.other, start', stop'⟩ :: rest)
      = front ++ ⟨.other, start, stop'⟩ :: rest := by
  unfold Token.join
  rw [List.getLast?_concat, List.dropLast_concat]

/-- Stretches that meet at `seam` become one, also if the second one is empty. -/
theorem Token.join_stretch {start seam stop : Nat} (hstart : start < seam) (hstop : seam ≤ stop)
    {rest : List Token} (hrest : ∀ t ∈ rest.head?, t.kind ≠ .other) (front : List Token) :
    Token.join (front ++ Token.stretch start seam) (Token.stretch seam stop ++ rest)
      = front ++ (Token.stretch start stop ++ rest) := by
  have hfirst : Token.stretch start seam = [⟨.other, start, seam⟩] := if_pos hstart
  have hwhole : Token.stretch start stop = [⟨.other, start, stop⟩] := if_pos (by omega)
  rw [hfirst, hwhole]
  rcases Nat.lt_or_eq_of_le hstop with hlt | rfl
  · have hsecond : Token.stretch seam stop = [⟨.other, seam, stop⟩] := if_pos hlt
    rw [hsecond]
    exact Token.join_other front rest start seam seam stop
  · have hsecond : Token.stretch seam seam = [] := if_neg (Nat.lt_irrefl seam)
    rw [hsecond, List.nil_append, Token.join_of_head hrest, List.append_assoc]

/-- **Concatenation.** For all rules and any two texts, of which the first leaves nothing open, the
    stream of both together is the stream of the first, followed by that of the second with the
    length of the first added to its offsets; a stretch of other content that ends the first and
    one that begins the second become a single stretch. -/
theorem HeadingRules.stream_append (rules : HeadingRules) (a b : Text) (ha : rules.Settled a) :
    rules.stream (a ++ b)
      = Token.join (rules.stream a) ((rules.stream b).map (Token.shift (byteLength a))) := by
  obtain ⟨front, start, stop, rest, hstart, hstop, hrest, hfirst, hsecond, hboth⟩ :=
    ha.exists_parts b
  rw [hfirst, hsecond, hboth]
  rcases hstart with ⟨rfl, rfl⟩ | hlt
  · have hempty : Token.stretch (byteLength a) (byteLength a) = [] := if_neg (Nat.lt_irrefl _)
    rw [hempty, List.nil_append, List.nil_append, Token.join_nil]
  · exact (Token.join_stretch hlt hstop hrest front).symm

/-- The content after a closed block goes on in the second text, up to its heading. -/
theorem HeadingRules.stream_append_after_block :
    let a := ['-', '-', '-', '-', '\n', '=', ' ', 'x', '\n', '-', '-', '-', '-', '\n']
    let b := ['é', '\n', '=', ' ', 'y']
    HeadingRules.Settled {} a ∧
    HeadingRules.stream {} a = [⟨.codeBlock, 0, 13⟩, ⟨.other, 13, 14⟩] ∧
    HeadingRules.stream {} b = [⟨.other, 0, 3⟩, ⟨.header 1, 3, 6⟩] ∧
    HeadingRules.stream {} (a ++ b)
      = Token.join (HeadingRules.stream {} a)
          ((HeadingRules.stream {} b).map (Token.shift (byteLength a))) := by
  intro a b
  have ha : HeadingRules.Settled {} a := Or.inr ⟨rfl, by decide⟩
  exact ⟨ha, by decide, by decide, HeadingRules.stream_append {} a b ha⟩

/-! ## Cutting before a heading -/

/-- An element of two lists put together comes from the second of them or from the first. -/
theorem append_eq_append_cons {α : Type} {first second front back : List α} {a : α}
    (h : first ++ second = front ++ a :: back) :
    (∃ middle, front = first ++ middle ∧ second = middle ++ a :: back) ∨
      ∃ middle, first = front ++ a :: middle ∧ back = middle ++ second := by
  rcases List.append_eq_append_iff.1 h with hsecond | ⟨middle, hfirst, hback⟩
  · exact Or.inl hsecond
  · cases middle with
    | nil => exact Or.inl ⟨[], by rw [hfirst, List.append_nil, List.append_nil], hback.symm⟩
    | cons b middle =>
      obtain ⟨rfl, hrest⟩ := List.cons.inj hback
      exact Or.inr ⟨middle, hfirst, hrest⟩

/-- If a line completes a heading, it is the heading: no block is open before it, all else that it
    completes is the stretch before it, and with nothing unfinished it completes nothing else. -/
theorem HeadingRules.readLine_header {rules : HeadingRules} {pos : Nat} {p : Pending} {piece : Text}
    {front back : List Token} {token : Token} (hheader : token.kind.isHeader = true)
    (h : (rules.readLine pos p piece).1 = front ++ token :: back) :
    back = [] ∧ token.start = pos ∧ front = p.finish pos ∧
      rules.readLine pos ⟨pos, none⟩ piece = ([token], (rules.readLine pos p piece).2) := by
  obtain ⟨start, fence⟩ := p
  have hmem : token ∈ front ++ token :: back := by simp
  cases fence with
  | some fence =>
    -- a line inside a block completes at most the block
    exfalso
    rw [← h] at hmem
    unfold HeadingRules.readLine at hmem
    dsimp only at hmem
    split at hmem
    · rw [List.mem_singleton.1 hmem] at hheader
      exact Bool.false_ne_true hheader
    · simp at hmem
  | none =>
    cases hkind : rules.classify (lineContent piece) with
    | header level =>
      simp only [HeadingRules.readLine, hkind] at h ⊢
      have hempty : Token.stretch pos pos = [] := if_neg (Nat.lt_irrefl pos)
      rcases List.eq_nil_or_concat back with rfl | ⟨back, last, rfl⟩
      · obtain ⟨hfront, htoken⟩ := List.append_inj' h rfl
        obtain rfl := List.singleton_inj.1 htoken
        exact ⟨rfl, rfl, hfront.symm, by rw [hempty, List.nil_append]⟩
      · -- otherwise the heading is not the last token, and belongs to the stretch
        rw [List.concat_eq_append, ← List.cons_append, ← List.append_assoc] at h
        have hstretch := List.append_inj_left' h rfl
        have hmem : token ∈ Token.stretch start pos := by rw [hstretch]; simp
        rw [Token.kind_of_mem_stretch hmem] at hheader
        exact absurd hheader (by decide)
    | delimiter fence =>
      exfalso
      rw [← h] at hmem
      simp only [HeadingRules.readLine, hkind] at hmem
      rw [Token.kind_of_mem_stretch hmem] at hheader
      exact absurd hheader (by decide)
    | other =>
      simp only [HeadingRules.readLine, hkind] at h
      simp at h

theorem Pending.isHeader_of_mem_finish {p : Pending} {stop : Nat} {token : Token}
    (h : token ∈ p.finish stop) : token.kind.isHeader = false := by
  unfold Pending.finish at h
  split at h
  · rw [List.mem_singleton.1 h]
    rfl
  · rw [Token.kind_of_mem_stretch h]
    rfl

/-- The lines before a heading give the tokens before it, and from the heading on the lines are
    read as if nothing had come before. -/
theorem HeadingRules.exists_cut_of_header {rules : HeadingRules} {pos : Nat} {p : Pending}
    {lines : List Text} {front back : List Token} {token : Token}
    (hheader : token.kind.isHeader = true)
    (h : rules.streamFrom pos p lines = front ++ token :: back) :
    ∃ before after, lines = before ++ after ∧ token.start = pos + byteLength before.flatten ∧
      rules.streamFrom pos p before = front ∧
      rules.streamFrom token.start ⟨token.start, none⟩ after = token :: back := by
  induction lines generalizing pos p front with
  | nil =>
    have hmem : token ∈ p.finish pos := by
      rw [HeadingRules.streamFrom] at h
      rw [h]
      simp
    rw [Pending.isHeader_of_mem_finish hmem] at hheader
    exact absurd hheader Bool.false_ne_true
  | cons piece lines ih =>
    rw [HeadingRules.streamFrom_cons] at h
    -- the heading comes with a later line, or with this one
    rcases append_eq_append_cons h with ⟨middle, rfl, hlater⟩ | ⟨middle, hline, rfl⟩
    · obtain ⟨before, after, rfl, hstart, hbefore, hafter⟩ := ih hlater
      refine ⟨piece :: before, after, rfl, ?_, ?_, hafter⟩
      · rw [hstart, byteLength_flatten_cons]
      · rw [HeadingRules.streamFrom_cons, hbefore]
    · obtain ⟨rfl, rfl, rfl, hfresh⟩ := HeadingRules.readLine_header hheader hline
      refine ⟨[], piece :: lines, rfl, rfl, rfl, ?_⟩
      rw [HeadingRules.streamFrom_cons, hfresh]
      rfl

end DocOutline
