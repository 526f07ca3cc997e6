import DocOutline.Proofs.Nesting
import DocOutline.Proofs.Parts
import DocOutline.Proofs.Titles

set_option autoImplicit false

/-! # Writing a document and reading it back

A manuscript is a preamble and a list of sections, each with the marker, level and title of its
heading and with a body. Written out, it is a text; the outline of this text has one section for
each section of the manuscript, with its level, its title and the byte at which it was written, and
nested by the levels (`Manuscript.outline_text`).

Titles may hold anything but line feeds, and bodies anything that has no heading of its own and
leaves no code block open. -/

namespace DocOutline

open Text

/-! ## Manuscripts -/

/-- A text without headings that leaves nothing open: it is empty, or it ends with a line feed, and
    its stream has no header and does not end with a code block. -/
structure HeadingRules.Headerless (rules : HeadingRules) (t : Text) : Prop where
  settled : rules.Settled t
  noHeader : ∀ token ∈ rules.stream t, token.kind.isHeader = false

/-- A section to be written, whose heading the rules admit. -/
structure WrittenSection (rules : HeadingRules) where
  marker : Char
  level : Nat
  /-- The blank after the markers. -/
  separator : Char
  title : Text
  /-- What stands between the heading and the next section. -/
  body : Text
  marker_ok : marker = '=' ∨ (marker = '#' ∧ rules.markdown = true)
  level_pos : 1 ≤ level
  level_le : level ≤ rules.maxLevel
  separator_ok : separator = ' ' ∨ separator = '\t'
  title_ok : '\n' ∉ title
  body_ok : rules.Headerless body

/-- A preamble with sections to be written after it. -/
structure Manuscript (rules : HeadingRules) where
  preamble : Text
  sections : List (WrittenSection rules)
  preamble_ok : rules.Headerless preamble

/-- The heading line of a section, without the line feed after it. -/
def WrittenSection.line {rules : HeadingRules} (s : WrittenSection rules) : Text :=
  List.replicate s.level s.marker ++ s.separator :: s.title

/-- A section as it is written. -/
def WrittenSection.text {rules : HeadingRules} (s : WrittenSection rules) : Text :=
  s.line ++ '\n' :: s.body

namespace Manuscript

variable {rules : HeadingRules}

/-- The text of a manuscript. -/
def text (m : Manuscript rules) : Text := m.preamble ++ m.sections.flatMap WrittenSection.text

/-- The byte at which the section with the given number is written. -/
def offset (m : Manuscript rules) (i : Nat) : Nat :=
  byteLength (m.preamble ++ (m.sections.take i).flatMap WrittenSection.text)

end Manuscript

/-! ## The heading line -/

/-- Carriage returns at the end of a line have no influence on a title. -/
theorem trim_lineContent (t : Text) : trim (lineContent t) = trim t := by
  obtain ⟨ending, ht, hbreaks⟩ := exists_dropEndWhile_append isLineBreak t
  have hspaces : ∀ c ∈ ending, isSpace c = true := by
    intro c hc
    have hbreak := hbreaks c hc
    simp only [isLineBreak, Bool.or_eq_true, beq_iff_eq] at hbreak
    rcases hbreak with rfl | rfl <;> decide
  conv => rhs; rw [ht]
  exact (trim_append_spaces hspaces _).symm

namespace WrittenSection

variable {rules : HeadingRules} (s : WrittenSection rules)

theorem marker_eq : s.marker = '=' ∨ s.marker = '#' := s.marker_ok.imp_right And.left

theorem separator_ne_marker : s.separator ≠ s.marker := by
  rcases s.separator_ok with h | h <;> rcases s.marker_eq with h' | h' <;> rw [h, h'] <;> decide

/-- The heading line as it is read: carriage returns at the end of the title are left out. -/
theorem lineContent_line :
    lineContent s.line
      = List.replicate s.level s.marker ++ s.separator :: lineContent s.title := by
  have hseparator : isLineBreak s.separator = false := by
    rcases s.separator_ok with h | h <;> rw [h] <;> decide
  exact dropEndWhile_append_cons hseparator _ _

theorem headingShape_line (rest : Text) :
    HeadingShape s.marker s.level
      (List.replicate s.level s.marker ++ s.separator :: rest) :=
  ⟨s.marker_eq, s.level_pos, s.separator, rest, s.separator_ok, rfl⟩

theorem classify_line : rules.classify (lineContent s.line) = .header s.level := by
  have hadmits : rules.admits s.marker s.level = true := by
    have hlevel := s.level_le
    rcases s.marker_ok with h | ⟨-, h⟩ <;> simp [HeadingRules.admits, h, hlevel]
  rw [lineContent_line, HeadingRules.classify_eq_header_iff]
  exact ⟨s.marker, s.headingShape_line _, hadmits⟩

/-- Reading the title of a heading line drops the markers and the separator, and nothing else but
    white space. -/
theorem title_line : DocOutline.title (lineContent s.line) = trim s.title := by
  have hmarker : isMarker s.marker = true := isMarker_iff.2 s.marker_eq
  have hseparator : isSpace s.separator = true := by
    rcases s.separator_ok with h | h <;> rw [h] <;> decide
  have hstart : ∀ c ∈ (lineContent s.line).head?, isSpace c = false := by
    rw [lineContent_line, (s.headingShape_line _).head?]
    simpa using isSpace_eq_false_of_isMarker hmarker
  have hend : ∀ c ∈ (s.separator :: lineContent s.title).head?, c ≠ s.marker := by
    simpa using s.separator_ne_marker
  calc DocOutline.title (lineContent s.line)
      = trim (dropMarkers (lineContent s.line)) := by
        rw [DocOutline.title, trimStart_of_head hstart]
    _ = trim (s.separator :: lineContent s.title) := by
        rw [lineContent_line, dropMarkers_replicate_append hmarker s.level_pos hend]
    _ = trim (lineContent s.title) := by
        rw [trim, ← List.singleton_append, trimStart_append (List.forall_mem_singleton.2 hseparator),
          ← trim]
    _ = trim s.title := trim_lineContent s.title

/-! ## The headings of a written section -/

/-- The stream of a heading line and the line feed after it. -/
theorem stream_line :
    rules.stream (s.line ++ ['\n'])
      = ⟨.header s.level, 0, byteLength (lineContent s.line)⟩
        :: Token.stretch (byteLength (lineContent s.line)) (byteLength (s.line ++ ['\n'])) := by
  have hline : '\n' ∉ s.line := by
    have hmarker : '\n' ≠ s.marker := by rcases s.marker_eq with h | h <;> rw [h] <;> decide
    have hseparator : '\n' ≠ s.separator := by
      rcases s.separator_ok with h | h <;> rw [h] <;> decide
    simp [line, List.mem_replicate, hmarker, hseparator, s.title_ok]
  have hkind : rules.classify (lineContent (s.line ++ ['\n'])) = .header s.level := by
    rw [lineContent_append_newline, classify_line]
  rw [HeadingRules.stream, pieces_line hline, rules.streamFrom_header _ _ _ _ hkind,
    lineContent_append_newline, Nat.zero_add, Nat.zero_add]
  rfl

theorem settled_line : rules.Settled (s.line ++ ['\n']) := by
  refine Or.inr ⟨List.getLast?_concat, fun token hlast => ?_⟩
  have hmem := List.mem_of_getLast? hlast
  rw [stream_line] at hmem
  rcases List.mem_cons.1 hmem with rfl | hstretch
  · simp
  · rw [Token.kind_of_mem_stretch hstretch]
    simp

theorem headings_line :
    (Document.ofText rules (s.line ++ ['\n'])).headings = [⟨s.level, 0, trim s.title⟩] := by
  obtain ⟨ending, hline⟩ := exists_lineContent_append s.line
  have hsplit : s.line ++ ['\n'] = [] ++ (lineContent s.line ++ (ending ++ ['\n'])) := by
    rw [List.nil_append, ← List.append_assoc, ← hline]
  have htext : Token.text ⟨.header s.level, 0, byteLength (lineContent s.line)⟩ (s.line ++ ['\n'])
      = lineContent s.line := Token.text_of_append hsplit rfl (Nat.zero_add _).symm
  have hheading : Token.heading? (s.line ++ ['\n'])
      ⟨.header s.level, 0, byteLength (lineContent s.line)⟩ = some ⟨s.level, 0, trim s.title⟩ := by
    rw [Token.heading?, htext, title_line]
    rfl
  rw [Document.headings_ofText, stream_line, List.filterMap_cons_some hheading,
    Token.filterMap_heading?_stretch]

end WrittenSection

/-! ## The headings of a manuscript -/

theorem Heading.shift_shift (m n : Nat) (h : Heading) :
    (h.shift m).shift n = h.shift (m + n) := by
  simp only [Heading.shift, Nat.add_assoc]

/-- A text without headings in front of another one moves the headings of the other. -/
theorem HeadingRules.Headerless.headings_append {rules : HeadingRules} {a : Text}
    (ha : rules.Headerless a) (b : Text) :
    (Document.ofText rules (a ++ b)).headings
      = (Document.ofText rules b).headings.map (Heading.shift (byteLength a)) := by
  have hnone : (Document.ofText rules a).headings = [] :=
    List.filterMap_eq_nil_iff.2 fun token hmem => Token.heading?_eq_none (ha.noHeader token hmem) a
  rw [Document.headings_append ha.settled, hnone, List.nil_append]

namespace WrittenSection

variable {rules : HeadingRules}

/-- A section in front of a text adds its heading, and moves those of the text. -/
theorem headings_text_append (s : WrittenSection rules) (rest : Text) :
    (Document.ofText rules (s.text ++ rest)).headings
      = ⟨s.level, 0, trim s.title⟩
        :: (Document.ofText rules rest).headings.map (Heading.shift (byteLength s.text)) := by
  have hsplit : s.text ++ rest = (s.line ++ ['\n']) ++ (s.body ++ rest) := by simp [text]
  have hlength : byteLength s.text = byteLength s.body + byteLength (s.line ++ ['\n']) := by
    simp only [text, byteLength_append, byteLength_cons, byteLength_nil]
    omega
  rw [hsplit, Document.headings_append s.settled_line, headings_line, s.body_ok.headings_append,
    List.map_map, List.singleton_append, hlength]
  congr 1
  exact List.map_congr_left fun h _ => Heading.shift_shift _ _ h

/-- The headings of sections that are written one after the other from byte `pos` on. -/
def headingsFrom (pos : Nat) : List (WrittenSection rules) → List Heading
  | [] => []
  | s :: rest => ⟨s.level, pos, trim s.title⟩ :: headingsFrom (pos + byteLength s.text) rest

theorem map_shift_headingsFrom (n pos : Nat) (sections : List (WrittenSection rules)) :
    (headingsFrom pos sections).map (Heading.shift n) = headingsFrom (pos + n) sections := by
  induction sections generalizing pos with
  | nil => rfl
  | cons s rest ih =>
    rw [headingsFrom, List.map_cons, ih, headingsFrom, Nat.add_right_comm]
    rfl

/-- Reading sections that are written one after the other gives their headings. -/
theorem headings_flatMap_text (sections : List (WrittenSection rules)) :
    (Document.ofText rules (sections.flatMap text)).headings = headingsFrom 0 sections := by
  induction sections with
  | nil => rfl
  | cons s rest ih =>
    rw [List.flatMap_cons, headings_text_append, ih, map_shift_headingsFrom, headingsFrom]

theorem map_level_headingsFrom (pos : Nat) (sections : List (WrittenSection rules)) :
    (headingsFrom pos sections).map Heading.level = sections.map WrittenSection.level := by
  induction sections generalizing pos with
  | nil => rfl
  | cons s rest ih => rw [headingsFrom, List.map_cons, List.map_cons, ih]

theorem getElem?_headingsFrom (pos : Nat) (sections : List (WrittenSection rules)) (i : Nat) :
    (headingsFrom pos sections)[i]? = sections[i]?.map fun s =>
      ⟨s.level, pos + byteLength ((sections.take i).flatMap text), trim s.title⟩ := by
  induction sections generalizing pos i with
  | nil => rfl
  | cons s rest ih =>
    cases i with
    | zero => rfl
    | succ i =>
      rw [headingsFrom, List.getElem?_cons_succ, List.getElem?_cons_succ, ih, List.take_succ_cons,
        List.flatMap_cons, byteLength_append, Nat.add_assoc]

end WrittenSection

namespace Manuscript

variable {rules : HeadingRules}

theorem headings_text (m : Manuscript rules) :
    (Document.ofText rules m.text).headings
      = WrittenSection.headingsFrom (byteLength m.preamble) m.sections := by
  rw [text, m.preamble_ok.headings_append, WrittenSection.headings_flatMap_text,
    WrittenSection.map_shift_headingsFrom, Nat.zero_add]

/-- **Reading back what is written.** For all rules and every manuscript, the walk of the outline of
    its text has one row for each section, in their order: with its level, its title without white
    space around it, and the byte at which it was written. A section either is a root, and then no
    earlier one has a smaller level, or its parent is the last earlier one that has. -/
theorem outline_text (m : Manuscript rules) :
    let outline := (Document.ofText rules m.text).outline
    let rows := Forest.walk outline
    let parents := Forest.parents none 0 outline
    let levels := m.sections.map WrittenSection.level
    rows.length = m.sections.length ∧ parents.length = m.sections.length ∧
    ∀ i s, m.sections[i]? = some s → ∃ row, rows[i]? = some row ∧ row.node.level = s.level ∧
      row.node.name = trim s.title ∧ row.node.start = m.offset i ∧
      ((NoneShallower levels i ∧ parents[i]? = some none ∧ row.depth = 0) ∨
        ∃ p, NearestShallower levels p i ∧ parents[i]? = some (some p) ∧ ChildRow rows p i) := by
  intro outline rows parents levels
  have hlevels : (Document.ofText rules m.text).headings.map Heading.level = levels := by
    rw [headings_text, WrittenSection.map_level_headingsFrom]
  have hlength : (Document.ofText rules m.text).headings.length = m.sections.length := by
    have h := congrArg List.length hlevels
    rwa [List.length_map, List.length_map] at h
  have houtline := Document.outline_ofText rules m.text
  have hrows : rows = Forest.rows 0 outline := Forest.walk_eq_rows outline
  refine ⟨?_, ?_, fun i s hs => ?_⟩
  · rw [hrows, Forest.length_rows]
    rw [← hlength, ← Forest.size_ofHeadings (byteLength m.text), ← houtline]
  · rw [Forest.length_parents]
    rw [← hlength, ← Forest.size_ofHeadings (byteLength m.text), ← houtline]
  · have hheading : (Document.ofText rules m.text).headings[i]?
        = some ⟨s.level, m.offset i, trim s.title⟩ := by
      rw [headings_text, WrittenSection.getElem?_headingsFrom, hs, Option.map_some, offset,
        byteLength_append]
    have hnode := Forest.node_rows_ofHeadings (byteLength m.text) 0
      (Document.ofText rules m.text).headings i
    rw [hheading, Option.map_some, List.getElem?_map, Option.map_eq_some_iff] at hnode
    obtain ⟨row, hrow, hnode⟩ := hnode
    have hparent := Forest.parent_cases (byteLength m.text)
      (Document.ofText rules m.text).headings hrow
    rw [← houtline] at hrow
    simp only [hlevels, ← houtline] at hparent
    refine ⟨row, by rw [hrows]; exact hrow, ?_, ?_, ?_, by rw [hrows]; exact hparent⟩
    · rw [hnode, Heading.toSection_level]
    · rw [hnode, Heading.toSection_name]
    · rw [hnode, Heading.toSection_start]

/-- A title that starts with a marker and ends with a carriage return, over a body with a heading
    inside a code block; then a deeper section whose title is blank. -/
theorem outline_text_blank_title :
    let first : WrittenSection {} :=
      { marker := '=', level := 1, separator := '\t', title := ['=', ' ', 'é', '\r'],
        body := ['-', '-', '-', '-', '\n', '=', ' ', 'x', '\n', '-', '-', '-', '-', '\n'],
        marker_ok := Or.inl rfl, level_pos := by decide, level_le := by decide,
        separator_ok := Or.inr rfl, title_ok := by decide,
        body_ok := ⟨Or.inr ⟨rfl, by decide⟩, by decide⟩ }
    let second : WrittenSection {} :=
      { marker := '#', level := 3, separator := ' ', title := [' ', '\r'], body := [],
        marker_ok := Or.inr ⟨rfl, rfl⟩, level_pos := by decide, level_le := by decide,
        separator_ok := Or.inl rfl, title_ok := by decide, body_ok := ⟨Or.inl rfl, by decide⟩ }
    let m : Manuscript {} := ⟨['x', '\n'], [first, second], Or.inr ⟨rfl, by decide⟩, by decide⟩
    m.sections[1]? = some second ∧
    ∃ row, (Forest.walk (Document.ofText {} m.text).outline)[1]? = some row ∧
      row.node.level = 3 ∧ row.node.name = [] ∧ row.node.start = 24 := by
  intro first second m
  have hoffset : m.offset 1 = 24 := by decide
  obtain ⟨row, hrow, hlevel, hname, hstart, -⟩ := (outline_text m).2.2 1 second rfl
  exact ⟨rfl, row, hrow, hlevel, hname, hstart.trans hoffset⟩

end Manuscript

end DocOutline
