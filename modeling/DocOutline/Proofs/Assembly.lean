import DocOutline.Proofs.Tiling
import DocOutline.Section.Nesting

set_option autoImplicit false

/-! # Putting a document together

A document can be put together part by part, each part with a token over it. However many parts are
added, and whatever they are, also empty ones, the document holds them in order: its text is their
contents, and its tokens stand over them (`Document.Holds`). One more part leaves this so, hence any
number of them (`Document.holds_ofParts`), and what a token covers stays the same whatever is added
after it (`Document.text_ofParts_append`).

A document that holds some parts is the only one. So a document that is taken apart along its tokens
can be put together again if the tokens cover the text, as those that are read from it do
(`Document.ofParts_exact`). -/

namespace DocOutline

open Text

/-! ## Tokens over parts -/

/-- The contents of some parts, one after the other. -/
def contents (parts : List (TokenKind × Text)) : Text := parts.flatMap Prod.snd

@[simp] theorem contents_nil : contents [] = [] := rfl

@[simp] theorem contents_cons (part : TokenKind × Text) (parts : List (TokenKind × Text)) :
    contents (part :: parts) = part.2 ++ contents parts := rfl

@[simp] theorem contents_append (before after : List (TokenKind × Text)) :
    contents (before ++ after) = contents before ++ contents after :=
  List.flatMap_append

namespace Token

/-- The tokens over parts that stand one after the other, the first one at byte `pos`. -/
def spans (pos : Nat) : List (TokenKind × Text) → List Token
  | [] => []
  | (kind, content) :: rest =>
    ⟨kind, pos, pos + byteLength content⟩ :: spans (pos + byteLength content) rest

theorem spans_append (pos : Nat) (before after : List (TokenKind × Text)) :
    spans pos (before ++ after)
      = spans pos before ++ spans (pos + byteLength (contents before)) after := by
  induction before generalizing pos with
  | nil => simp [spans]
  | cons part before ih => simp [spans, ih, Nat.add_assoc]

theorem length_spans (pos : Nat) (parts : List (TokenKind × Text)) :
    (spans pos parts).length = parts.length := by
  induction parts generalizing pos with
  | nil => rfl
  | cons part parts ih => simp [spans, ih]

theorem getElem?_spans (pos : Nat) (parts : List (TokenKind × Text)) (i : Nat) :
    (spans pos parts)[i]? = parts[i]?.map fun part =>
      ⟨part.1, pos + byteLength (contents (parts.take i)),
        pos + byteLength (contents (parts.take i)) + byteLength part.2⟩ := by
  induction parts generalizing pos i with
  | nil => rfl
  | cons part parts ih =>
    cases i with
    | zero => rfl
    | succ i => simp [spans, ih, Nat.add_assoc]

/-- A token covers the content of its part, also if more is added to the text. -/
theorem text_spans {parts : List (TokenKind × Text)} {i : Nat} {part : TokenKind × Text}
    {token : Token} (hpart : parts[i]? = some part) (htoken : (spans 0 parts)[i]? = some token)
    (more : Text) : token.text (contents parts ++ more) = part.2 := by
  rw [getElem?_spans, hpart, Option.map_some, Option.some.injEq, Nat.zero_add] at htoken
  obtain ⟨hlt, rfl⟩ := List.getElem?_eq_some_iff.1 hpart
  have hsplit : parts = parts.take i ++ parts[i] :: parts.drop (i + 1) := by
    rw [← List.drop_eq_getElem_cons hlt, List.take_append_drop]
  have htext : contents parts ++ more
      = contents (parts.take i) ++ (parts[i].2 ++ (contents (parts.drop (i + 1)) ++ more)) := by
    have hcontents := congrArg contents hsplit
    rw [contents_append, contents_cons] at hcontents
    rw [hcontents, List.append_assoc, List.append_assoc]
  refine text_of_append htext ?_ ?_ <;> rw [← htoken]

/-- Tokens that cover a text stand over what they cover. -/
theorem Covers.spans_eq {pos : Nat} {tokens : List Token} {t : Text} (h : Covers pos tokens t)
    (front : Text) (hfront : byteLength front = pos) :
    spans pos (tokens.map fun token => (token.kind, token.text (front ++ t))) = tokens := by
  induction h generalizing front with
  | nil => rfl
  | @cons pos kind part rest tokens hne h ih =>
    have hpart : Token.text ⟨kind, pos, pos + byteLength part⟩ (front ++ (part ++ rest)) = part :=
      text_of_append rfl hfront.symm (by rw [hfront])
    have hrest := ih (front ++ part) (by rw [byteLength_append, hfront])
    rw [List.append_assoc] at hrest
    rw [List.map_cons, spans, hpart, hrest]

end Token

/-! ## Documents that hold parts -/

namespace Document

/-- The document is made of these parts: its text is their contents, its tokens stand over them. -/
structure Holds (d : Document) (parts : List (TokenKind × Text)) : Prop where
  text_eq : d.text = contents parts
  tokens_eq : d.tokens = Token.spans 0 parts

/-- No two documents are made of the same parts. -/
theorem Holds.eq {d d' : Document} {parts : List (TokenKind × Text)} (h : d.Holds parts)
    (h' : d'.Holds parts) : d = d' := by
  cases d
  cases d'
  obtain ⟨rfl, rfl⟩ := h
  obtain ⟨rfl, rfl⟩ := h'
  rfl

/-- Adding a part adds it to the parts that the document is made of. -/
theorem Holds.push {d : Document} {parts : List (TokenKind × Text)} (h : d.Holds parts)
    (kind : TokenKind) (content : Text) :
    (d.push kind content).Holds (parts ++ [(kind, content)]) := by
  refine ⟨?_, ?_⟩
  · simp [Document.push, h.text_eq]
  · simp [Document.push, nextToken, h.text_eq, h.tokens_eq, Token.spans_append, Token.spans]

theorem Holds.foldl_push {d : Document} {before : List (TokenKind × Text)} (h : d.Holds before)
    (after : List (TokenKind × Text)) :
    (after.foldl (fun d part => d.push part.1 part.2) d).Holds (before ++ after) := by
  induction after generalizing d before with
  | nil => simpa using h
  | cons part after ih =>
    have hrest := ih (h.push part.1 part.2)
    simpa using hrest

/-- A document that is put together from some parts is made of them. -/
theorem holds_ofParts (parts : List (TokenKind × Text)) : (ofParts parts).Holds parts := by
  have hempty : Holds {} [] := ⟨rfl, rfl⟩
  exact hempty.foldl_push parts

/-- The token of a part is the one that adding it gave. -/
theorem getElem?_tokens_ofParts {parts : List (TokenKind × Text)} {i : Nat} {kind : TokenKind}
    {content : Text} (h : parts[i]? = some (kind, content)) :
    (ofParts parts).tokens[i]? = some ((ofParts (parts.take i)).nextToken kind content) := by
  rw [(holds_ofParts parts).tokens_eq, Token.getElem?_spans, h, nextToken,
    (holds_ofParts _).text_eq]
  simp

/-- Parts that are added later do not change what a token covers. -/
theorem text_ofParts_append {before : List (TokenKind × Text)} {token : Token}
    (h : token ∈ (ofParts before).tokens) (after : List (TokenKind × Text)) :
    token.text (ofParts (before ++ after)).text = token.text (ofParts before).text := by
  rw [(holds_ofParts before).tokens_eq] at h
  obtain ⟨i, htoken⟩ := List.getElem?_of_mem h
  have hlt := (List.getElem?_eq_some_iff.1 htoken).1
  rw [Token.length_spans] at hlt
  have hpart : before[i]? = some before[i] := List.getElem?_eq_getElem hlt
  have hown := Token.text_spans hpart htoken []
  rw [List.append_nil] at hown
  rw [(holds_ofParts _).text_eq, (holds_ofParts _).text_eq, contents_append,
    Token.text_spans hpart htoken, hown]

/-- A document that is read from a text is made of what its tokens cover. -/
theorem holds_ofText (rules : HeadingRules) (text : Text) :
    (ofText rules text).Holds ((rules.stream text).map fun t => (t.kind, t.text text)) := by
  have hcovers := rules.stream_covers text
  refine ⟨?_, (hcovers.spans_eq [] rfl).symm⟩
  rw [contents, List.flatMap_map]
  exact (hcovers.flatMap_text [] rfl).symm

/-- **A document is the parts that it was put together from.**

    * After any number of parts, with any contents, the text is the contents one after the other, and
      there is one token for each part: the one that adding the part gave. It has the kind of the
      part, starts where the contents before it end, and covers its content in the final text.
    * Parts that are added later leave the earlier tokens in place, and what they cover as it is.
    * For every text and all rules, putting together the kinds of the tokens that are read from the
      text and what they cover gives back the text and the tokens, and with them the outline. -/
theorem ofParts_exact :
    (∀ parts : List (TokenKind × Text),
      let d := ofParts parts
      d.text = contents parts ∧ d.tokens.length = parts.length ∧
      ∀ i kind content, parts[i]? = some (kind, content) →
        ∃ token, d.tokens[i]? = some token ∧
          token = (ofParts (parts.take i)).nextToken kind content ∧ token.kind = kind ∧
          token.start = byteLength (contents (parts.take i)) ∧
          token.stop = token.start + byteLength content ∧ token.text d.text = content) ∧
    (∀ before after : List (TokenKind × Text),
      let d := ofParts before
      let d' := ofParts (before ++ after)
      d.tokens <+: d'.tokens ∧ ∀ token ∈ d.tokens, token.text d'.text = token.text d.text) ∧
    (∀ (rules : HeadingRules) (text : Text),
      let d := ofParts ((rules.stream text).map fun t => (t.kind, t.text text))
      d.text = text ∧ d.tokens = rules.stream text ∧
        d.outline = (ofText rules text).outline) := by
  refine ⟨fun parts => ?_, fun before after => ?_, fun rules text => ?_⟩
  · intro d
    have hd : d.Holds parts := holds_ofParts parts
    refine ⟨hd.text_eq, by rw [hd.tokens_eq, Token.length_spans], fun i kind content hpart => ?_⟩
    have htoken := getElem?_tokens_ofParts hpart
    refine ⟨_, htoken, rfl, rfl, ?_, rfl, ?_⟩
    · rw [nextToken, (holds_ofParts _).text_eq]
    · rw [hd.tokens_eq] at htoken
      have htext := Token.text_spans hpart htoken []
      rwa [List.append_nil, ← hd.text_eq] at htext
  · intro d d'
    refine ⟨?_, fun token hmem => text_ofParts_append hmem after⟩
    rw [(holds_ofParts before).tokens_eq, (holds_ofParts (before ++ after)).tokens_eq,
      Token.spans_append]
    exact List.prefix_append _ _
  · intro d
    have hd : d = ofText rules text := (holds_ofParts _).eq (holds_ofText rules text)
    rw [hd]
    exact ⟨rfl, rfl, rfl⟩

/-- Behind a wide character and a part without content: the third token starts after four bytes. -/
theorem ofParts_exact_after_empty :
    let parts : List (TokenKind × Text) :=
      [(.header 1, ['=', ' ', 'é']), (.codeBlock, []), (.other, ['\n', 'x'])]
    parts[2]? = some (.other, ['\n', 'x']) ∧
    ∃ token, (ofParts parts).tokens[2]? = some token ∧ token.kind = .other ∧ token.start = 4 ∧
      token.text (ofParts parts).text = ['\n', 'x'] := by
  intro parts
  have hstart : byteLength (contents (parts.take 2)) = 4 := by decide
  obtain ⟨token, htoken, -, hkind, hoffset, -, htext⟩ :=
    (ofParts_exact.1 parts).2.2 2 .other ['\n', 'x'] rfl
  exact ⟨rfl, token, htoken, hkind, hoffset.trans hstart, htext⟩

end Document

end DocOutline
