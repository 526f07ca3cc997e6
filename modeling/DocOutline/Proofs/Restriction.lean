import DocOutline.Proofs.LineGrammar
import DocOutline.Proofs.Nesting
import DocOutline.Proofs.Splicing

set_option autoImplicit false

/-! # Stricter rules

Rules differ in the headings they admit and in nothing else. A heading line that is not admitted is
content, also if it could be read as something else, so that the lines that open and close code
blocks are the same under all rules. The stream under stricter rules has the same code blocks, and
of the headings those that the stricter rules admit (`HeadingRules.stream_restrict`); what is left
out becomes part of a longer stretch of other content.

Two readings of the same lines are compared line by line. Between two lines they agree on the code
block that is open, but not on where the stretch of other content starts (`Pending.Agree`). -/

namespace DocOutline

open Text

/-! ## Lines under two rules -/

/-- The rules `strict` admit no heading that `loose` do not. -/
structure HeadingRules.Within (strict loose : HeadingRules) : Prop where
  maxLevel : strict.maxLevel ≤ loose.maxLevel
  markdown : strict.markdown = true → loose.markdown = true

theorem HeadingRules.Within.admits {strict loose : HeadingRules} (h : strict.Within loose)
    {marker : Char} {level : Nat} (hadmits : strict.admits marker level = true) :
    loose.admits marker level = true := by
  have hlevel := h.maxLevel
  have hmarkdown := h.markdown
  simp only [HeadingRules.admits, Bool.and_eq_true, Bool.or_eq_true, decide_eq_true_eq] at hadmits ⊢
  exact ⟨hadmits.1.imp_right hmarkdown, Nat.le_trans hadmits.2 hlevel⟩

/-- Any two rules are within the rules that admit all that one of them does. -/
theorem HeadingRules.exists_within (rules rules' : HeadingRules) :
    ∃ loose, rules.Within loose ∧ rules'.Within loose :=
  ⟨⟨max rules.maxLevel rules'.maxLevel, true⟩,
    ⟨Nat.le_max_left .., fun _ => rfl⟩, ⟨Nat.le_max_right .., fun _ => rfl⟩⟩

theorem HeadingRules.classify_of_mark (rules : HeadingRules) {line : Text} {marker : Char}
    {level : Nat} (h : headingMark? line = some (marker, level)) :
    rules.classify line = if rules.admits marker level then .header level else .other := by
  rw [HeadingRules.classify, h]

/-- A line that does not look like a heading is the same under all rules. -/
theorem HeadingRules.classify_of_noMark {line : Text} (h : headingMark? line = none) :
    (∃ fence, ∀ rules : HeadingRules, rules.classify line = .delimiter fence) ∨
      ∀ rules : HeadingRules, rules.classify line = .other := by
  unfold HeadingRules.classify
  rw [h]
  cases Fence.ofLine? line with
  | some fence => exact Or.inl ⟨fence, fun _ => rfl⟩
  | none => exact Or.inr fun _ => rfl

/-! ## Tokens that stay -/

/-- Do the rules admit a header token over a text, by its level and by the first character of what
    it covers? -/
def HeadingRules.admitsToken (rules : HeadingRules) (text : Text) (t : Token) : Bool :=
  t.kind.level?.any (fun level => decide (level ≤ rules.maxLevel)) &&
    (rules.markdown || (t.text text).head? == some '=')

/-- Code blocks stay under all rules, and headers if the rules admit them. -/
def HeadingRules.keeps (rules : HeadingRules) (text : Text) (t : Token) : Bool :=
  t.kind == .codeBlock || rules.admitsToken text t

/-- A header token over a heading line stays if the rules admit the marker and level of the line. -/
theorem HeadingRules.keeps_header (rules : HeadingRules) {text front line back : Text}
    {marker : Char} {level : Nat} (hmark : headingMark? line = some (marker, level))
    (htext : text = front ++ (line ++ back)) :
    rules.keeps text
        ⟨.header level, byteLength front, byteLength front + byteLength line⟩
      = rules.admits marker level := by
  have hline : Token.text ⟨.header level, byteLength front, byteLength front + byteLength line⟩ text
      = line := Token.text_of_append htext rfl rfl
  rw [HeadingRules.keeps, HeadingRules.admitsToken, hline, (headingMark?_eq_some_iff.1 hmark).head?,
    HeadingRules.admits]
  have hmarker : (some marker == some '=') = (marker == '=') := rfl
  rw [hmarker, Bool.and_comm (marker == '=' || rules.markdown), Bool.or_comm (marker == '=')]
  rfl

/-- No stretch of other content passes a condition that other content fails. -/
theorem Token.filter_stretch {p : Token → Bool} (hp : ∀ t : Token, t.kind = .other → p t = false)
    (start stop : Nat) : (Token.stretch start stop).filter p = [] := by
  rw [List.filter_eq_nil_iff]
  intro t ht
  rw [hp t (Token.kind_of_mem_stretch ht)]
  exact Bool.false_ne_true

/-- Is the token something else than a stretch of other content? -/
def Token.isMarked (t : Token) : Bool := t.kind != .other

theorem Token.isMarked_eq_false {t : Token} (h : t.kind = .other) : t.isMarked = false := by
  rw [Token.isMarked, h]
  rfl

theorem HeadingRules.keeps_eq_false (rules : HeadingRules) (text : Text) (t : Token)
    (h : t.kind = .other) : rules.keeps text t = false := by
  rw [HeadingRules.keeps, HeadingRules.admitsToken, h]
  rfl

/-! ## Two readings side by side -/

/-- What two readings of the same lines have unfinished: the same, or two stretches of other content
    that may start at different offsets. -/
inductive Pending.Agree : Pending → Pending → Prop
  | same (p : Pending) : Agree p p
  | content (start start' : Nat) : Agree ⟨start, none⟩ ⟨start', none⟩

/-- One line outside of blocks under two rules: the stricter ones complete what they keep of what
    the others complete. -/
theorem HeadingRules.Within.readLine_content {strict loose : HeadingRules}
    (h : strict.Within loose) (start start' : Nat) {text front piece back : Text}
    (htext : text = front ++ (piece ++ back)) :
    (strict.readLine (byteLength front) ⟨start, none⟩ piece).1.filter Token.isMarked
        = (loose.readLine (byteLength front) ⟨start', none⟩ piece).1.filter (strict.keeps text) ∧
      Pending.Agree (strict.readLine (byteLength front) ⟨start, none⟩ piece).2
        (loose.readLine (byteLength front) ⟨start', none⟩ piece).2 := by
  have hmarked : ∀ stop, (Token.stretch start stop).filter Token.isMarked = [] :=
    Token.filter_stretch (fun _ => Token.isMarked_eq_false) start
  have hkept : ∀ stop, (Token.stretch start' stop).filter (strict.keeps text) = [] :=
    Token.filter_stretch (strict.keeps_eq_false text) start'
  cases hmark : headingMark? (lineContent piece) with
  | none =>
    rcases HeadingRules.classify_of_noMark hmark with ⟨fence, hkind⟩ | hkind
    · rw [strict.readLine_of_delimiter _ _ (hkind strict),
        loose.readLine_of_delimiter _ _ (hkind loose)]
      exact ⟨by rw [hmarked, hkept], .same _⟩
    · rw [strict.readLine_of_other _ _ (hkind strict), loose.readLine_of_other _ _ (hkind loose)]
      exact ⟨rfl, .content start start'⟩
  | some mark =>
    obtain ⟨marker, level⟩ := mark
    obtain ⟨ending, hpiece⟩ := exists_lineContent_append piece
    have hline : text = front ++ (lineContent piece ++ (ending ++ back)) := by
      rw [htext, ← List.append_assoc (lineContent piece), ← hpiece]
    have hkeeps := strict.keeps_header hmark hline
    have hstrict := strict.classify_of_mark hmark
    have hloose := loose.classify_of_mark hmark
    by_cases hadmits : strict.admits marker level = true
    · -- both read a heading, and it is kept
      rw [hadmits] at hkeeps
      rw [if_pos hadmits] at hstrict
      rw [if_pos (h.admits hadmits)] at hloose
      rw [strict.readLine_of_header _ _ hstrict, loose.readLine_of_header _ _ hloose,
        List.filter_append, List.filter_append, hmarked, hkept, List.filter_cons_of_pos hkeeps]
      exact ⟨rfl, .same _⟩
    · -- the stricter rules read content, and what the others read is not kept
      rw [if_neg hadmits] at hstrict
      rw [← hkeeps] at hadmits
      rw [strict.readLine_of_other _ _ hstrict]
      by_cases hlooser : loose.admits marker level = true
      · rw [if_pos hlooser] at hloose
        rw [loose.readLine_of_header _ _ hloose, List.filter_append, hkept,
          List.filter_cons_of_neg hadmits]
        exact ⟨rfl, .content start _⟩
      · rw [if_neg hlooser] at hloose
        rw [loose.readLine_of_other _ _ hloose]
        exact ⟨rfl, .content start start'⟩

/-- One line under two rules. Inside a block the rules play no part. -/
theorem HeadingRules.Within.readLine {strict loose : HeadingRules} (h : strict.Within loose)
    {p q : Pending} (hpq : Pending.Agree p q) {text front piece back : Text}
    (htext : text = front ++ (piece ++ back)) :
    (strict.readLine (byteLength front) p piece).1.filter Token.isMarked
        = (loose.readLine (byteLength front) q piece).1.filter (strict.keeps text) ∧
      Pending.Agree (strict.readLine (byteLength front) p piece).2
        (loose.readLine (byteLength front) q piece).2 := by
  cases hpq with
  | content start start' => exact h.readLine_content start start' htext
  | same p =>
    obtain ⟨start, fence⟩ := p
    cases fence with
    | none => exact h.readLine_content start start htext
    | some fence =>
      simp only [HeadingRules.readLine]
      split
      · exact ⟨rfl, .same _⟩
      · exact ⟨rfl, .same _⟩

/-- The lines that are left, under two rules. -/
theorem HeadingRules.Within.streamFrom {strict loose : HeadingRules} (h : strict.Within loose)
    {p q : Pending} (hpq : Pending.Agree p q) {text : Text} {lines : List Text} (front : Text)
    (htext : text = front ++ lines.flatten) :
    (strict.streamFrom (byteLength front) p lines).filter Token.isMarked
      = (loose.streamFrom (byteLength front) q lines).filter (strict.keeps text) := by
  induction lines generalizing front p q with
  | nil =>
    have hmarked : ∀ start stop, (Token.stretch start stop).filter Token.isMarked = [] :=
      Token.filter_stretch fun _ => Token.isMarked_eq_false
    have hkept : ∀ start stop, (Token.stretch start stop).filter (strict.keeps text) = [] :=
      Token.filter_stretch (strict.keeps_eq_false text)
    cases hpq with
    | content start start' =>
      simp only [HeadingRules.streamFrom, Pending.finish, hmarked, hkept]
    | same p =>
      obtain ⟨start, fence⟩ := p
      cases fence with
      | none => simp only [HeadingRules.streamFrom, Pending.finish, hmarked, hkept]
      | some fence => rfl
  | cons piece lines ih =>
    rw [List.flatten_cons] at htext
    obtain ⟨htokens, hagree⟩ := h.readLine hpq htext
    have hrest := ih hagree (front ++ piece) (by rw [htext, List.append_assoc])
    rw [byteLength_append] at hrest
    rw [HeadingRules.streamFrom_cons, HeadingRules.streamFrom_cons, List.filter_append,
      List.filter_append, htokens, hrest]

/-- Of the stream under looser rules the stricter ones keep the headers they admit and all code
    blocks, and have nothing else but stretches of other content. -/
theorem HeadingRules.Within.stream {strict loose : HeadingRules} (h : strict.Within loose)
    (text : Text) :
    (strict.stream text).filter Token.isMarked
      = (loose.stream text).filter (strict.keeps text) :=
  h.streamFrom (.same ⟨0, none⟩) [] (flatten_pieces text).symm

/-! ## Headers and code blocks of a document -/

/-- The tokens of a kind under stricter rules are those of that kind under looser ones that are
    kept. The kind is one of those that matter, and `keep` says for it what is kept. -/
theorem HeadingRules.Within.filter_stream {strict loose : HeadingRules} (h : strict.Within loose)
    (text : Text) {kind keep : Token → Bool} (hmarked : ∀ t, kind t = true → t.isMarked = true)
    (hkeep : ∀ t, kind t = true → strict.keeps text t = keep t) :
    (strict.stream text).filter kind = ((loose.stream text).filter kind).filter keep := by
  have hstrict : (strict.stream text).filter kind
      = ((strict.stream text).filter Token.isMarked).filter kind := by
    rw [List.filter_filter]
    refine List.filter_congr fun t _ => ?_
    cases hkind : kind t with
    | false => rfl
    | true => rw [hmarked t hkind]; rfl
  rw [hstrict, h.stream, List.filter_filter, List.filter_filter]
  refine List.filter_congr fun t _ => ?_
  cases hkind : kind t with
  | false => rw [Bool.false_and, Bool.and_false]
  | true => rw [Bool.true_and, Bool.and_true, hkeep t hkind]

namespace Document

/-- The tokens that are code blocks, in the order of the tokens. -/
def codeBlocks (d : Document) : List Token := d.tokens.filter fun t => t.kind == .codeBlock

theorem codeBlocks_of_within {strict loose : HeadingRules} (h : strict.Within loose) (text : Text) :
    (ofText strict text).codeBlocks = (ofText loose text).codeBlocks := by
  have hmarked : ∀ t : Token, (t.kind == .codeBlock) = true → t.isMarked = true := by
    intro t ht
    rw [Token.isMarked, eq_of_beq ht]
    rfl
  have hkeep : ∀ t : Token, (t.kind == .codeBlock) = true → strict.keeps text t = true := by
    intro t ht
    rw [HeadingRules.keeps, ht, Bool.true_or]
  exact (h.filter_stream text hmarked hkeep).trans (List.filter_eq_self.2 fun _ _ => rfl)

theorem headers_of_within {strict loose : HeadingRules} (h : strict.Within loose) (text : Text) :
    (ofText strict text).headers
      = (ofText loose text).headers.filter (strict.admitsToken text) := by
  have hmarked : ∀ t : Token, t.kind.isHeader = true → t.isMarked = true := by
    intro t ht
    cases hkind : t.kind with
    | other => rw [hkind] at ht; exact absurd ht Bool.false_ne_true
    | header level => rw [Token.isMarked, hkind]; rfl
    | codeBlock => rw [Token.isMarked, hkind]; rfl
  have hkeep : ∀ t : Token, t.kind.isHeader = true →
      strict.keeps text t = strict.admitsToken text t := by
    intro t ht
    cases hkind : t.kind with
    | codeBlock => rw [hkind] at ht; exact absurd ht Bool.false_ne_true
    | header level => rw [HeadingRules.keeps, hkind]; rfl
    | other => rw [HeadingRules.keeps, hkind]; rfl
  exact h.filter_stream text hmarked hkeep

end Document

namespace HeadingRules

open Document

/-- **Stricter rules.** For every text, the code blocks are the same under any two rules. The
    headers under stricter rules are those headers under looser ones, of the same kind and at the
    same offsets and in the same order, whose level the stricter rules admit and which start with
    `=` unless the stricter rules admit `#` too. The looser rules may be those that admit both
    markers and all levels up to any bound. -/
theorem stream_restrict (text : Text) :
    (∀ rules rules' : HeadingRules,
      (ofText rules text).codeBlocks = (ofText rules' text).codeBlocks) ∧
    ∀ strict loose : HeadingRules, strict.maxLevel ≤ loose.maxLevel →
      (strict.markdown = true → loose.markdown = true) →
      (ofText strict text).headers
        = (ofText loose text).headers.filter fun t =>
            t.kind.level?.any (fun level => decide (level ≤ strict.maxLevel)) &&
              (strict.markdown || (t.text text).head? == some '=') := by
  constructor
  · intro rules rules'
    obtain ⟨loose, hrules, hrules'⟩ := HeadingRules.exists_within rules rules'
    rw [codeBlocks_of_within hrules, codeBlocks_of_within hrules']
  · intro strict loose hlevel hmarkdown
    exact headers_of_within ⟨hlevel, hmarkdown⟩ text

/-- A `#` heading before a block and a deep one after it: rules without `#` and with two levels keep
    neither, and have the block. -/
theorem stream_restrict_shallow :
    let text := ['#', ' ', 'x', '\n', '-', '-', '-', '-', '\n', '=', ' ', 'y', '\n',
      '-', '-', '-', '-', '\n', '=', '=', '=', ' ', 'z', '\n', '=', ' ', 'w']
    let strict : HeadingRules := ⟨2, false⟩
    let loose : HeadingRules := ⟨255, true⟩
    strict.maxLevel ≤ loose.maxLevel ∧ (strict.markdown = true → loose.markdown = true) ∧
    (ofText loose text).headers
      = [⟨.header 1, 0, 3⟩, ⟨.header 3, 18, 23⟩, ⟨.header 1, 24, 27⟩] ∧
    (ofText strict text).headers = [⟨.header 1, 24, 27⟩] ∧
    (ofText strict text).codeBlocks = (ofText loose text).codeBlocks := by
  intro text strict loose
  have hlevel : strict.maxLevel ≤ loose.maxLevel := by decide
  have hmarkdown : strict.markdown = true → loose.markdown = true := by decide
  obtain ⟨hblocks, hheaders⟩ := stream_restrict text
  refine ⟨hlevel, hmarkdown, by decide, ?_, hblocks strict loose⟩
  rw [hheaders strict loose hlevel hmarkdown]
  decide

end HeadingRules

end DocOutline
