import DocOutline.Proofs.Splicing
import DocOutline.Proofs.Tiling
import DocOutline.Section.Nesting

set_option autoImplicit false

/-! # The headings of a document and of its parts

What was shown of token streams is carried over to headings here. A heading has its title, so this
needs that a token covers the same text in a document and in the part of it that the token comes
from. Stretches of other content are no headings, so nothing is left of the seam between two parts:

* the headings of two texts put together are those of the first, then those of the second, moved by
  the length of the first (`Document.headings_append`);
* a document can be cut in two before any of its headings (`Document.exists_cut`). -/

namespace DocOutline

open Text

/-! ## Tokens and headings in a longer text -/

/-- Every token that covers a text has a part of the text for itself. -/
theorem Token.Covers.exists_part {pos : Nat} {tokens : List Token} {t : Text}
    (h : Covers pos tokens t) :
    ∀ token ∈ tokens, ∃ before part after, t = before ++ (part ++ after) ∧
      token.start = pos + byteLength before ∧
      token.stop = pos + byteLength before + byteLength part := by
  induction h with
  | nil => simp
  | @cons pos kind part rest tokens _ _ ih =>
    intro token hmem
    rcases List.mem_cons.1 hmem with rfl | hmem
    · exact ⟨[], part, rest, rfl, rfl, rfl⟩
    · obtain ⟨before, own, after, rfl, hstart, hstop⟩ := ih token hmem
      refine ⟨part ++ before, own, after, (List.append_assoc ..).symm, ?_, ?_⟩
      · rw [hstart, byteLength_append, Nat.add_assoc]
      · rw [hstop, byteLength_append, Nat.add_assoc pos]

/-- A token of a text covers the same in a longer text. -/
theorem HeadingRules.text_shift {rules : HeadingRules} {t : Text} {token : Token}
    (h : token ∈ rules.stream t) (before after : Text) :
    (token.shift (byteLength before)).text (before ++ (t ++ after)) = token.text t := by
  obtain ⟨front, part, back, rfl, hstart, hstop⟩ := (rules.stream_covers t).exists_part token h
  rw [Nat.zero_add] at hstart hstop
  have hown : token.text (front ++ (part ++ back)) = part :=
    Token.text_of_append rfl hstart hstop
  have hlonger : before ++ (front ++ (part ++ back) ++ after)
      = (before ++ front) ++ (part ++ (back ++ after)) := by simp only [List.append_assoc]
  have hstart' : (token.shift (byteLength before)).start = byteLength (before ++ front) := by
    show token.start + _ = _
    rw [hstart, byteLength_append, Nat.add_comm]
  have hstop' : (token.shift (byteLength before)).stop
      = byteLength (before ++ front) + byteLength part := by
    show token.stop + _ = _
    rw [hstop, byteLength_append]
    omega
  rw [hown]
  exact Token.text_of_append hlonger hstart' hstop'

/-- A heading with another offset. -/
def Heading.relocate (first : Nat → Nat) (h : Heading) : Heading := ⟨h.level, first h.start, h.name⟩

/-- The heading `n` bytes further on. -/
def Heading.shift (n : Nat) (h : Heading) : Heading := ⟨h.level, h.start + n, h.name⟩

@[simp] theorem Heading.shift_zero : Heading.shift 0 = id := rfl

/-- A header token at another offset of another text is the heading at this offset, if it covers the
    same there. -/
theorem Token.heading?_relocate {t t' : Text} {g : Nat → Nat} {token : Token}
    (h : token.kind.isHeader = true → (token.relocate g).text t' = token.text t) :
    (token.relocate g).heading? t' = (token.heading? t).map (Heading.relocate g) := by
  have hkind : (token.relocate g).kind = token.kind := rfl
  unfold Token.heading?
  rw [hkind]
  cases hlevel : token.kind.level? with
  | none => rfl
  | some level =>
    rw [h (by rw [TokenKind.isHeader, hlevel]; rfl)]
    rfl

theorem Token.heading?_eq_none {token : Token} (h : token.kind.isHeader = false) (t : Text) :
    token.heading? t = none := by
  unfold Token.heading?
  rw [Option.map_eq_none_iff]
  simpa [TokenKind.isHeader] using h

theorem Token.isHeader_of_heading? {token : Token} {t : Text} {h : Heading}
    (hheading : token.heading? t = some h) :
    token.kind.isHeader = true ∧ token.start = h.start := by
  unfold Token.heading? at hheading
  obtain ⟨level, hlevel, rfl⟩ := Option.map_eq_some_iff.1 hheading
  exact ⟨by rw [TokenKind.isHeader, hlevel, Option.isSome_some], rfl⟩

/-- There are no headings in a stretch of other content. -/
theorem Token.filterMap_heading?_stretch (start stop : Nat) (t : Text) :
    (Token.stretch start stop).filterMap (Token.heading? t) = [] := by
  refine List.filterMap_eq_nil_iff.2 fun token hmem => Token.heading?_eq_none ?_ t
  rw [Token.kind_of_mem_stretch hmem]
  rfl

namespace Document

theorem headings_ofText (rules : HeadingRules) (t : Text) :
    (ofText rules t).headings = (rules.stream t).filterMap (Token.heading? t) := rfl

/-- The headings of a part of a text, read off the tokens of the part at their place in the text. -/
theorem filterMap_heading?_shift (rules : HeadingRules) (before t after : Text) :
    ((rules.stream t).map (Token.shift (byteLength before))).filterMap
        (Token.heading? (before ++ (t ++ after)))
      = (ofText rules t).headings.map (Heading.shift (byteLength before)) := by
  rw [List.filterMap_map, headings_ofText, List.map_filterMap]
  refine List.filterMap_congr fun token hmem => ?_
  exact Token.heading?_relocate (g := fun n => n + byteLength before) fun _ =>
    HeadingRules.text_shift hmem before after

/-- The headings of the first part of a text. -/
theorem filterMap_heading?_first (rules : HeadingRules) (a b : Text) :
    (rules.stream a).filterMap (Token.heading? (a ++ b)) = (ofText rules a).headings := by
  simpa using filterMap_heading?_shift rules [] a b

/-- The headings of the second part of a text. -/
theorem filterMap_heading?_second (rules : HeadingRules) (a b : Text) :
    ((rules.stream b).map (Token.shift (byteLength a))).filterMap (Token.heading? (a ++ b))
      = (ofText rules b).headings.map (Heading.shift (byteLength a)) := by
  simpa using filterMap_heading?_shift rules a b []

/-! ## Putting two texts together -/

/-- If the first text leaves nothing open, its headings and those of the second are all headings of
    the two together. -/
theorem headings_append {rules : HeadingRules} {a : Text} (ha : rules.Settled a) (b : Text) :
    (ofText rules (a ++ b)).headings
      = (ofText rules a).headings
        ++ (ofText rules b).headings.map (Heading.shift (byteLength a)) := by
  obtain ⟨front, start, stop, rest, -, -, -, hfirst, hsecond, hboth⟩ := ha.exists_parts b
  rw [← filterMap_heading?_first rules a b, ← filterMap_heading?_second, hfirst, hsecond,
    headings_ofText]
  simp only [hboth, List.filterMap_append, Token.filterMap_heading?_stretch, List.append_nil,
    List.nil_append]

/-! ## Cutting a text in two -/

/-- A text can be cut before any of its headings: the first part has the headings before it, and the
    second the others. -/
theorem exists_cut {rules : HeadingRules} {t : Text} {front back : List Heading} {h : Heading}
    (hheadings : (ofText rules t).headings = front ++ h :: back) :
    ∃ a b, t = a ++ b ∧ byteLength a = h.start ∧ (ofText rules a).headings = front ∧
      (ofText rules b).headings.map (Heading.shift (byteLength a)) = h :: back := by
  rw [headings_ofText] at hheadings
  obtain ⟨tokens, others, hsplit, hfront, hother⟩ := List.filterMap_eq_append_iff.1 hheadings
  obtain ⟨skipped, token, later, rfl, hskipped, htoken, hback⟩ :=
    List.filterMap_eq_cons_iff.1 hother
  obtain ⟨hheader, hstart⟩ := Token.isHeader_of_heading? htoken
  have hstream : rules.stream t = (tokens ++ skipped) ++ token :: later := by
    rw [List.append_assoc, hsplit]
  obtain ⟨before, after, hlines, hbefore, hfirst, hsecond⟩ :=
    HeadingRules.exists_cut_of_header hheader hstream
  obtain ⟨hpieces, hpieces'⟩ := pieces_flatten_of_append hlines
  have ht : t = before.flatten ++ after.flatten := by
    rw [← flatten_pieces t, hlines, List.flatten_append]
  rw [Nat.zero_add] at hbefore
  refine ⟨before.flatten, after.flatten, ht, by rw [← hbefore, hstart], ?_, ?_⟩
  · have hstream : rules.stream before.flatten = tokens ++ skipped := by
      rw [HeadingRules.stream, hpieces, hfirst]
    rw [← filterMap_heading?_first rules _ after.flatten, ← ht, hstream, List.filterMap_append,
      List.filterMap_eq_nil_iff.2 hskipped, List.append_nil, hfront]
  · have hstream : (rules.stream after.flatten).map (Token.shift (byteLength before.flatten))
        = token :: later := by
      rw [HeadingRules.map_shift_stream, hpieces', ← hbefore, hsecond]
    rw [← filterMap_heading?_second, ← ht, hstream, List.filterMap_cons_some htoken,
      hback]

end Document

end DocOutline
