import DocOutline.Proofs.Extraction
import DocOutline.Proofs.LineRoles

set_option autoImplicit false

/-! # Both conventions of ending lines

A text reads the same whether its lines end with a line feed or with a carriage return and a line
feed. `Text.toCrlf` puts in the carriage returns, `Text.crlfOffset` says where an offset of the text
comes to lie, and the tokens and the outline of the new text are those of the old one at these
offsets (`Document.outline_crlf`). The text may have carriage returns of its own, anywhere.

All that is needed of the two texts is that they have the same lines at the right offsets
(`Text.moved_toCrlf`); that this is enough was shown for any change of offsets. -/

namespace DocOutline

open Text

namespace Text

/-! ## Line feeds -/

/-- Number of line feeds among the first `n` bytes of a text. -/
def feedsBefore : Text → Nat → Nat
  | _, 0 => 0
  | [], _ + 1 => 0
  | c :: t, n + 1 => (if c = '\n' then 1 else 0) + feedsBefore t (n + 1 - c.utf8Size)

theorem feedsBefore_zero (t : Text) : feedsBefore t 0 = 0 := by
  unfold feedsBefore
  rfl

theorem feedsBefore_mono (t : Text) {m n : Nat} (h : m ≤ n) :
    feedsBefore t m ≤ feedsBefore t n := by
  induction t generalizing m n with
  | nil =>
    cases m with
    | zero => rw [feedsBefore_zero]; exact Nat.zero_le _
    | succ m => exact Nat.zero_le _
  | cons c t ih =>
    cases m with
    | zero => rw [feedsBefore_zero]; exact Nat.zero_le _
    | succ m =>
      cases n with
      | zero => omega
      | succ n =>
        have hrest : feedsBefore t (m + 1 - c.utf8Size) ≤ feedsBefore t (n + 1 - c.utf8Size) :=
          ih (by omega)
        unfold feedsBefore
        omega

/-- Between two parts of a text, the line feeds before are those of the first part. -/
theorem feedsBefore_append (front back : Text) :
    feedsBefore (front ++ back) (byteLength front) = front.count '\n' := by
  induction front with
  | nil => exact feedsBefore_zero back
  | cons c front ih =>
    have hpos := c.utf8Size_pos
    obtain ⟨n, hn⟩ : ∃ n, c.utf8Size + byteLength front = n + 1 :=
      ⟨c.utf8Size + byteLength front - 1, by omega⟩
    have hrest : n + 1 - c.utf8Size = byteLength front := by omega
    rw [byteLength_cons, hn, List.cons_append, feedsBefore, hrest, ih, List.count_cons,
      Nat.add_comm]
    simp

/-! ## Putting in carriage returns -/

/-- The text with a carriage return put in before every line feed. -/
def toCrlf (t : Text) : Text := t.flatMap fun c => if c = '\n' then ['\r', '\n'] else [c]

/-- Where the byte at offset `n` of a text comes to lie if a carriage return is put in before every
    line feed: it moves by the number of line feeds before it. -/
def crlfOffset (t : Text) (n : Nat) : Nat := n + feedsBefore t n

theorem crlfOffset_lt_iff (t : Text) (a b : Nat) : crlfOffset t a < crlfOffset t b ↔ a < b := by
  unfold crlfOffset
  constructor
  · intro h
    by_contra hle
    have := feedsBefore_mono t (Nat.not_lt.1 hle)
    omega
  · intro h
    have := feedsBefore_mono t (Nat.le_of_lt h)
    omega

@[simp] theorem toCrlf_nil : toCrlf [] = [] := rfl

theorem toCrlf_cons (c : Char) (t : Text) :
    toCrlf (c :: t) = (if c = '\n' then ['\r', '\n'] else [c]) ++ toCrlf t := List.flatMap_cons

@[simp] theorem toCrlf_append (s t : Text) : toCrlf (s ++ t) = toCrlf s ++ toCrlf t :=
  List.flatMap_append

theorem toCrlf_of_not_mem {t : Text} (h : '\n' ∉ t) : toCrlf t = t := by
  induction t with
  | nil => rfl
  | cons c t ih =>
    obtain ⟨hc, ht⟩ := List.ne_and_not_mem_of_not_mem_cons h
    rw [toCrlf_cons, if_neg (Ne.symm hc), ih ht, List.singleton_append]

theorem byteLength_toCrlf (t : Text) : byteLength (toCrlf t) = byteLength t + t.count '\n' := by
  induction t with
  | nil => rfl
  | cons c t ih =>
    rw [toCrlf_cons, byteLength_append, ih, byteLength_cons, List.count_cons]
    by_cases hc : c = '\n'
    · subst hc
      have hbreak : byteLength ['\r', '\n'] = '\n'.utf8Size + 1 := by decide
      simp only [if_pos, beq_self_eq_true, hbreak]
      omega
    · simp only [if_neg hc, beq_iff_eq, byteLength_cons, byteLength_nil]
      omega

/-- The offset between two parts of a text comes to lie between the two parts. -/
theorem crlfOffset_of_append {t front back : Text} (h : t = front ++ back) :
    crlfOffset t (byteLength front) = byteLength (toCrlf front) := by
  rw [h, crlfOffset, feedsBefore_append, byteLength_toCrlf]

/-! ## The same lines -/

/-- A line feed ends a line, so there is none in the middle of one. -/
theorem exists_line_of_mem_pieces (t : Text) :
    ∀ piece ∈ pieces t, ∃ line, '\n' ∉ line ∧ (piece = line ∨ piece = line ++ ['\n']) := by
  induction t with
  | nil => simp [pieces]
  | cons c t ih =>
    rw [pieces_cons]
    by_cases hc : c = '\n'
    · subst hc
      rw [consPiece_newline]
      exact List.forall_mem_cons.2 ⟨⟨[], by simp, Or.inr rfl⟩, ih⟩
    · cases hcut : pieces t with
      | nil =>
        rw [consPiece_nil hc]
        intro piece hmem
        rw [List.mem_singleton.1 hmem]
        exact ⟨[c], by simpa using Ne.symm hc, Or.inl rfl⟩
      | cons first more =>
        rw [hcut] at ih
        obtain ⟨⟨line, hline, hfirst⟩, hmore⟩ := List.forall_mem_cons.1 ih
        rw [consPiece_cons hc]
        refine List.forall_mem_cons.2 ⟨⟨c :: line, ?_, ?_⟩, hmore⟩
        · exact List.not_mem_cons_of_ne_of_not_mem (Ne.symm hc) hline
        · rcases hfirst with rfl | rfl
          · exact Or.inl rfl
          · exact Or.inr rfl

theorem not_mem_lineContent {t piece : Text} (h : piece ∈ pieces t) : '\n' ∉ lineContent piece := by
  obtain ⟨line, hline, hpiece⟩ := exists_line_of_mem_pieces t piece h
  have hcontent : lineContent piece = lineContent line := by
    rcases hpiece with rfl | rfl
    · rfl
    · exact lineContent_append_newline line
  obtain ⟨ending, hsplit⟩ := exists_lineContent_append line
  intro hmem
  rw [hcontent] at hmem
  exact hline (by rw [hsplit]; exact List.mem_append_left ending hmem)

/-- The carriage return that is put into a line does not belong to its content. -/
theorem lineContent_toCrlf {t piece : Text} (h : piece ∈ pieces t) :
    lineContent (toCrlf piece) = lineContent piece := by
  obtain ⟨line, hline, hpiece⟩ := exists_line_of_mem_pieces t piece h
  rcases hpiece with rfl | rfl
  · rw [toCrlf_of_not_mem hline]
  · have hbreak : ∀ c ∈ toCrlf ['\n'], isLineBreak c = true := by
      simp [toCrlf, isLineBreak]
    rw [toCrlf_append, toCrlf_of_not_mem hline, lineContent_append_newline]
    exact dropEndWhile_append_of_forall hbreak line

theorem pieces_toCrlf (t : Text) : pieces (toCrlf t) = (pieces t).map toCrlf := by
  induction t with
  | nil => rfl
  | cons c t ih =>
    rw [toCrlf_cons, pieces_cons]
    by_cases hc : c = '\n'
    · subst hc
      rw [if_pos rfl, consPiece_newline, List.map_cons, ← ih]
      rfl
    · rw [if_neg hc, List.singleton_append, pieces_cons, ih]
      cases pieces t with
      | nil =>
        rw [consPiece_nil hc, List.map_singleton, List.map_nil, consPiece_nil hc,
          toCrlf_cons, if_neg hc, toCrlf_nil, List.append_nil]
      | cons first more =>
        rw [consPiece_cons hc, List.map_cons, List.map_cons, consPiece_cons hc, toCrlf_cons,
          if_neg hc, List.singleton_append]

/-- The lines of a text after some of its lines, with carriage returns put in. -/
theorem moved_toCrlf {t : Text} {lines : List Text} (hlines : ∀ l ∈ lines, l ∈ pieces t)
    (front : Text) (ht : t = front ++ lines.flatten) :
    Text.Moved (crlfOffset t) (byteLength front) lines (lines.map toCrlf) := by
  induction lines generalizing front with
  | nil => exact .nil _
  | cons piece lines ih =>
    obtain ⟨hpiece, hlines⟩ := List.forall_mem_cons.1 hlines
    obtain ⟨ending, hending⟩ := exists_lineContent_append piece
    have hline : t = (front ++ lineContent piece) ++ (ending ++ lines.flatten) := by
      rw [ht, List.flatten_cons, List.append_assoc, ← List.append_assoc (lineContent piece),
        ← hending]
    have hrest : t = (front ++ piece) ++ lines.flatten := by
      rw [ht, List.flatten_cons, List.append_assoc]
    -- the start, the end of the content and the end of the line all lie between two parts
    have hpos := crlfOffset_of_append ht
    have hstop := crlfOffset_of_append hline
    have hnext := crlfOffset_of_append hrest
    have hmoved := ih hlines (front ++ piece) hrest
    rw [toCrlf_append, byteLength_append, byteLength_append, ← hpos] at hstop hnext
    rw [toCrlf_of_not_mem (not_mem_lineContent hpiece)] at hstop
    rw [byteLength_append] at hmoved
    exact .cons (lineContent_toCrlf hpiece) hstop hnext hmoved

end Text

/-! ## Tokens and headings -/

/-- The tokens are the same at the new offsets. -/
theorem HeadingRules.stream_toCrlf (rules : HeadingRules) (text : Text) :
    rules.stream (toCrlf text) = (rules.stream text).map (Token.relocate (crlfOffset text)) := by
  have hmoved := moved_toCrlf (fun l hl => hl) [] (flatten_pieces text).symm
  have hstream := rules.streamFrom_relocate (crlfOffset_lt_iff text) hmoved ⟨0, none⟩
  have hzero : crlfOffset text 0 = 0 := by rw [crlfOffset, feedsBefore_zero]
  rw [Pending.relocate, byteLength_nil, hzero, ← pieces_toCrlf] at hstream
  exact hstream

/-- A token covers at its new offsets what it has covered, with carriage returns put in. -/
theorem HeadingRules.text_toCrlf {rules : HeadingRules} {text : Text} {token : Token}
    (h : token ∈ rules.stream text) :
    (token.relocate (crlfOffset text)).text (toCrlf text) = toCrlf (token.text text) := by
  obtain ⟨before, part, after, htext, hstart, hstop⟩ :=
    (rules.stream_covers text).exists_part token h
  rw [Nat.zero_add] at hstart hstop
  have hsplit : text = (before ++ part) ++ after := by rw [htext, List.append_assoc]
  have hfirst := crlfOffset_of_append htext
  have hlast := crlfOffset_of_append hsplit
  rw [← hstart] at hfirst
  rw [toCrlf_append, byteLength_append, byteLength_append, ← hstop] at hlast
  have hnew : toCrlf text = toCrlf before ++ (toCrlf part ++ toCrlf after) := by
    rw [htext, toCrlf_append, toCrlf_append]
  rw [Token.text_of_append htext hstart hstop]
  exact Token.text_of_append hnew hfirst hlast

/-- There are no line feeds in a header. -/
theorem HeadingRules.not_mem_text_of_isHeader {rules : HeadingRules} {text : Text} {token : Token}
    (h : token ∈ rules.stream text) (hheader : token.kind.isHeader = true) :
    '\n' ∉ token.text text := by
  obtain ⟨before, piece, after, hlines, -, htext⟩ :=
    HeadingRules.exists_line_of_mem h (TokenKind.ne_other_of_isHeader hheader)
  rw [htext hheader]
  exact not_mem_lineContent (t := text) (by rw [hlines]; simp)

theorem HeadingRules.text_toCrlf_of_isHeader {rules : HeadingRules} {text : Text} {token : Token}
    (h : token ∈ rules.stream text) (hheader : token.kind.isHeader = true) :
    (token.relocate (crlfOffset text)).text (toCrlf text) = token.text text := by
  rw [HeadingRules.text_toCrlf h,
    toCrlf_of_not_mem (HeadingRules.not_mem_text_of_isHeader h hheader)]

/-- Only the first of the headings can start at 0. -/
theorem Heading.Ordered.pos_of_mem_tail {length : Nat} {headings : List Heading}
    (h : Heading.Ordered length headings) : ∀ k ∈ headings.tail, 0 < k.start := by
  intro k hk
  cases headings with
  | nil => simp at hk
  | cons first later => exact Nat.zero_lt_of_lt (List.rel_of_pairwise_cons h.ascending hk)

namespace Document

theorem headings_toCrlf (rules : HeadingRules) (text : Text) :
    (ofText rules (toCrlf text)).headings
      = (ofText rules text).headings.map (Heading.relocate (crlfOffset text)) := by
  rw [headings_ofText, HeadingRules.stream_toCrlf, List.filterMap_map, headings_ofText,
    List.map_filterMap]
  refine List.filterMap_congr fun token hmem => ?_
  exact Token.heading?_relocate (HeadingRules.text_toCrlf_of_isHeader hmem)

/-- **Line endings.** For every text, with or without carriage returns, and all rules: if a carriage
    return is put in before every line feed, the stream has the same tokens, at offsets that move by
    the number of line feeds before them. The headers cover the same as before. The outline has the
    same sections with the same titles and levels, whose first bytes move in this way, and so do the
    bytes after their last ones. -/
theorem outline_crlf (rules : HeadingRules) (text : Text) :
    let d := ofText rules text
    let d' := ofText rules (toCrlf text)
    let moved := crlfOffset text
    d'.tokens = d.tokens.map (Token.relocate moved) ∧
    d'.headers.map (fun t => t.text d'.text) = d.headers.map (fun t => t.text d.text) ∧
    d'.outline = Forest.relocate moved (fun stop => moved (stop + 1) - 1) d.outline := by
  intro d d' moved
  have htokens : d'.tokens = d.tokens.map (Token.relocate moved) := rules.stream_toCrlf text
  refine ⟨htokens, ?_, ?_⟩
  · rw [headers, htokens, List.filter_map, List.map_map]
    refine List.map_congr_left fun t ht => ?_
    obtain ⟨hmem, hheader⟩ := List.mem_filter.1 ht
    exact HeadingRules.text_toCrlf_of_isHeader hmem hheader
  · have hlength : byteLength (toCrlf text) = moved (byteLength text) :=
      (crlfOffset_of_append (List.append_nil text).symm).symm
    have hlast : moved (byteLength text - 1 + 1) - 1 = moved (byteLength text) - 1 := by
      cases hlen : byteLength text with
      | zero =>
        have hnil : text = [] := by
          by_contra hne
          have := byteLength_pos hne
          omega
        show crlfOffset text 1 - 1 = crlfOffset text 0 - 1
        rw [hnil]
        rfl
      | succ n => rfl
    have hstarts : ∀ h ∈ d.headings.tail, moved (h.start - 1 + 1) - 1 = moved h.start - 1 := by
      intro h hh
      have hord : Heading.Ordered (byteLength text) d.headings :=
        (headersAscend_ofText rules text).ordered
      rw [Nat.sub_add_cancel (hord.pos_of_mem_tail h hh)]
    rw [outline_ofText, outline_ofText, headings_toCrlf, hlength, Forest.relocate_eq_map]
    exact Forest.ofHeadings_relocate moved (fun stop => moved (stop + 1) - 1) _ _ hlast hstarts

end Document

end DocOutline
