import DocOutline.Proofs.Bounds
import DocOutline.Proofs.LineEndings
import DocOutline.Proofs.Positions

set_option autoImplicit false

/-! # Where headings stand on their lines

Lines are found in two ways. The token stream cuts the text into pieces, character by character; a
line table collects the offsets after the line feeds among the bytes and searches in them. Here the
two are compared: a piece starts at column 0 of the line that the table finds for it
(`LineTable.position_of_pieces`), and its content is what the bytes of that line are without their
trailing carriage returns (`Text.bytes_lineContent`).

So headings and code blocks start at column 0, no two headings are on one line, and the position that
is written for a section has the column 1 and the number of its line
(`Document.outline_lines`). -/

namespace DocOutline

open Text

/-! ## Bytes of lines -/

namespace Text

/-- The carriage return as a byte. -/
def carriageReturn : UInt8 := 13

/-- The bytes from `start` up to the next line feed, or to the end of the text. -/
def lineBytes (t : Text) (start : Nat) : List UInt8 :=
  ((bytes t).drop start).takeWhile (· != lineFeed)

theorem lineFeed_notMem_bytes {t : Text} (h : '\n' ∉ t) : lineFeed ∉ bytes t := by
  induction t with
  | nil => simp
  | cons c t ih =>
    obtain ⟨hc, ht⟩ := List.ne_and_not_mem_of_not_mem_cons h
    simp [lineFeed_notMem_utf8EncodeChar (Ne.symm hc), ih ht]

/-- The bytes of a line, with a line feed after it or the end of the text. -/
theorem takeWhile_bytes_line {line rest : Text} (hline : '\n' ∉ line)
    (hrest : ∀ c ∈ rest.head?, c = '\n') :
    (bytes (line ++ rest)).takeWhile (· != lineFeed) = bytes line := by
  have hbytes : ∀ b ∈ bytes line, (b != lineFeed) = true := by
    intro b hb
    simp only [bne_iff_ne]
    rintro rfl
    exact lineFeed_notMem_bytes hline hb
  rw [bytes_append, List.takeWhile_append_of_pos hbytes]
  cases rest with
  | nil => simp
  | cons c rest =>
    have hc : c = '\n' := hrest c rfl
    subst hc
    have hfeed : String.utf8EncodeChar '\n' = [lineFeed] := by decide
    simp [hfeed]

/-- Nothing is dropped from the end if what stands there fails the condition. -/
theorem rdropWhile_append_of_forall_not {α : Type} {p : α → Bool} {back : List α}
    (hne : back ≠ []) (h : ∀ a ∈ back, ¬ p a = true) (front : List α) :
    (front ++ back).rdropWhile p = front ++ back := by
  rw [List.rdropWhile_eq_self_iff]
  intro hboth
  rw [List.getLast_append_of_ne_nil hboth hne]
  exact h _ (List.getLast_mem hne)

/-- Carriage returns at the end of a line without line feeds are the same among its bytes. -/
theorem bytes_lineContent {line : Text} (hline : '\n' ∉ line) :
    bytes (lineContent line) = (bytes line).rdropWhile (· == carriageReturn) := by
  show bytes (line.rdropWhile isLineBreak) = _
  induction line using List.reverseRecOn with
  | nil => rfl
  | append_singleton line c ih =>
    obtain ⟨hfront, hc⟩ : '\n' ∉ line ∧ '\n' ≠ c := by simpa using hline
    rw [List.rdropWhile_concat, bytes_append]
    by_cases hreturn : c = '\r'
    · subst hreturn
      have hbyte : bytes ['\r'] = [carriageReturn] := by decide
      rw [if_pos (by decide), hbyte, List.rdropWhile_concat_pos _ _ _ (by decide), ih hfront]
    · -- no byte of another character is a carriage return
      have hbreak : ¬ isLineBreak c = true := by
        simp [isLineBreak, hreturn, Ne.symm hc]
      have hnone : ∀ b ∈ bytes [c], ¬ (b == carriageReturn) = true := by
        intro b hb heq
        rw [eq_of_beq heq, bytes_cons, bytes_nil, List.append_nil] at hb
        exact @ascii_notMem_utf8EncodeChar '\r' c (by decide) hreturn hb
      have hne : bytes [c] ≠ [] := by simp
      rw [if_neg hbreak, bytes_append, rdropWhile_append_of_forall_not hne hnone]

/-! ## Pieces as lines of the table -/

/-- A piece with what follows it is a line without line feeds, then a line feed or the end of the
    text. -/
theorem exists_line_of_pieces {t : Text} {before after : List Text} {piece : Text}
    (h : pieces t = before ++ piece :: after) :
    ∃ line rest, '\n' ∉ line ∧ (∀ c ∈ rest.head?, c = '\n') ∧
      (piece :: after).flatten = line ++ rest ∧ lineContent piece = lineContent line := by
  obtain ⟨line, hline, hpiece⟩ := exists_line_of_mem_pieces t piece (by rw [h]; simp)
  rcases hpiece with rfl | rfl
  · -- only the last piece lacks its line feed
    have hlast : after = [] := by
      by_contra hafter
      have hsplit : pieces t = (before ++ [piece]) ++ after := by simpa using h
      have hfeed := getLast?_of_pieces_append hsplit hafter piece (by simp)
      exact hline (List.mem_of_getLast? hfeed)
    subst hlast
    exact ⟨piece, [], hline, by simp, by simp, rfl⟩
  · exact ⟨line, '\n' :: after.flatten, hline, by simp, by simp, lineContent_append_newline line⟩

/-- Lines that all have their line feed end with one. -/
theorem rdropWhile_bytes_flatten {lines : List Text} (h : ∀ l ∈ lines, l.getLast? = some '\n') :
    (bytes lines.flatten).rdropWhile (· != lineFeed) = bytes lines.flatten := by
  rcases List.eq_nil_or_concat lines with rfl | ⟨front, last, rfl⟩
  · rfl
  · rw [List.concat_eq_append] at h ⊢
    obtain ⟨line, rfl⟩ := List.getLast?_eq_some_iff.1 (h last (by simp))
    have hfeed : bytes ['\n'] = [lineFeed] := by decide
    simp [hfeed]

/-- The bytes of a text that is cut before one of its pieces. -/
theorem bytes_of_pieces {t : Text} {front back : List Text} (h : pieces t = front ++ back) :
    bytes t = bytes front.flatten ++ bytes back.flatten := by
  rw [← bytes_append, ← List.flatten_append, ← h, flatten_pieces]

/-- The bytes of the line that starts with a piece, up to the carriage returns at its end, are those
    of the content of the piece. -/
theorem lineBytes_of_pieces {t : Text} {before after : List Text} {piece : Text}
    (h : pieces t = before ++ piece :: after) :
    (lineBytes t (byteLength before.flatten)).rdropWhile (· == carriageReturn)
      = bytes (lineContent piece) := by
  obtain ⟨line, rest, hline, hrest, hflatten, hcontent⟩ := exists_line_of_pieces h
  have hbytes := bytes_of_pieces h
  rw [hflatten] at hbytes
  rw [lineBytes, hbytes, ← length_bytes, List.drop_left, takeWhile_bytes_line hline hrest,
    hcontent, bytes_lineContent hline]

end Text

namespace LineTable

/-- A piece starts a line of the table, at column 0; its number is that of the line feeds before. -/
theorem position_of_pieces {t : Text} {before after : List Text} {piece : Text}
    (h : pieces t = before ++ piece :: after) :
    (ofText t).position (byteLength before.flatten)
        = ⟨((bytes t).take (byteLength before.flatten)).count lineFeed, 0⟩ ∧
      (ofText t).starts[((bytes t).take (byteLength before.flatten)).count lineFeed]?
        = some (byteLength before.flatten) := by
  have hbytes := bytes_of_pieces h
  have htake : (bytes t).take (byteLength before.flatten) = bytes before.flatten := by
    rw [hbytes, ← length_bytes, List.take_left]
  have hfeeds := rdropWhile_bytes_flatten (getLast?_of_pieces_append h (by simp))
  have hle : min (byteLength before.flatten) (byteLength t) = (bytes before.flatten).length := by
    have hlength := congrArg List.length hbytes
    simp only [length_bytes, List.length_append] at hlength ⊢
    omega
  have hposition := position_eq hbytes (byteLength before.flatten) hle
  have hstart := getElem?_starts hbytes
  rw [hfeeds, Nat.sub_self] at hposition
  rw [hfeeds, length_bytes] at hstart
  rw [htake]
  exact ⟨hposition, hstart⟩

end LineTable

/-! ## Headings and code blocks -/

/-- Headings and code blocks start at column 0. -/
theorem HeadingRules.position_of_mem {rules : HeadingRules} {text : Text} {token : Token}
    (hmem : token ∈ rules.stream text) (hother : token.kind ≠ .other) :
    (LineTable.ofText text).position token.start
      = ⟨((bytes text).take token.start).count lineFeed, 0⟩ := by
  obtain ⟨before, piece, after, hlines, hstart, -⟩ :=
    HeadingRules.exists_line_of_mem hmem hother
  rw [hstart]
  exact (LineTable.position_of_pieces hlines).1

/-- A header covers its line of the table, up to the carriage returns at the end of the line. -/
theorem HeadingRules.line_of_isHeader {rules : HeadingRules} {text : Text} {token : Token}
    (hmem : token ∈ rules.stream text) (hheader : token.kind.isHeader = true) :
    let table := LineTable.ofText text
    ∃ lineStart, table.starts[(table.position token.start).line]? = some lineStart ∧
      bytes (token.text text) = (lineBytes text lineStart).rdropWhile (· == carriageReturn) := by
  intro table
  obtain ⟨before, piece, after, hlines, hstart, hcovers⟩ :=
    HeadingRules.exists_line_of_mem hmem (TokenKind.ne_other_of_isHeader hheader)
  obtain ⟨hposition, hentry⟩ := LineTable.position_of_pieces hlines
  refine ⟨byteLength before.flatten, ?_, ?_⟩
  · rw [hstart, hposition]
    exact hentry
  · rw [hcovers hheader, lineBytes_of_pieces hlines]

/-! ## Positions in the outline -/

/-- The line that is written for a section, with level, extent and position, if its heading is at the
    start of the line with the given number, counted from zero. -/
def Row.renderAt (line : Nat) (row : Row) : Text :=
  List.replicate (2 * row.depth) ' ' ++ row.shownTitle
    ++ " [level ".toList ++ ofNat row.node.level ++ "] ".toList ++ ofNat row.node.start
    ++ "..=".toList ++ ofNat row.node.stop ++ " (".toList ++ ofNat (line + 1)
    ++ [':', '1', ')', '\n']

theorem Row.render_of_position {table : LineTable} {row : Row} {line : Nat}
    (h : table.position row.node.start = ⟨line, 0⟩) : row.render table true = row.renderAt line := by
  have hcolumn : ":".toList ++ (ofNat (0 + 1) ++ (")".toList ++ ['\n'])) = [':', '1', ')', '\n'] := by
    simp only [String.reduceToList]
    rfl
  rw [Row.render, if_pos rfl, Section.details_eq h, Row.displayName_eq_shownTitle, Row.renderAt,
    ← hcolumn]
  simp only [List.append_assoc]

namespace Document

/-- What is left of an outline when it is pruned still has its headings at the start of lines. -/
theorem position_of_mem_walk_prune {rules : HeadingRules} {text : Text} {maxDepth : Nat} {row : Row}
    (h : row ∈ Forest.walk ((ofText rules text).outline.prune maxDepth)) :
    (LineTable.ofText text).position row.node.start
      = ⟨((bytes text).take row.node.start).count lineFeed, 0⟩ := by
  obtain ⟨full, hfull, children, rfl⟩ := Forest.exists_row_of_mem_walk_prune h
  obtain ⟨token, hmem, hof⟩ := exists_header_of_mem hfull
  have hposition := HeadingRules.position_of_mem hmem (by simp [hof.kind])
  rwa [hof.start] at hposition

/-- **Lines of headings.** For every text and all rules:

    * headings and code blocks start at column 0 by the line table of the text;
    * a header covers the bytes of its line, from the start that the table has for the line up to the
      next line feed or the end of the text, without the carriage returns at their end;
    * later headers are on later lines;
    * the sections of the outline start where the headers do, and the tree that is written for it, at
      whatever depth it is pruned, has for each of them the position `(k + 1:1)` if there are `k` line
      feeds before it. -/
theorem outline_lines (rules : HeadingRules) (text : Text) :
    let d := ofText rules text
    let table := LineTable.ofText text
    (∀ token ∈ d.tokens, token.kind ≠ .other → (table.position token.start).column = 0) ∧
    (∀ token ∈ d.headers, ∃ lineStart,
      table.starts[(table.position token.start).line]? = some lineStart ∧
      bytes (token.text text) = (lineBytes text lineStart).rdropWhile (· == carriageReturn)) ∧
    (d.headers.Pairwise fun a b =>
      (table.position a.start).line < (table.position b.start).line) ∧
    List.Forall₂ (fun token row => token.start = row.node.start) d.headers
      (Forest.walk d.outline) ∧
    ∀ maxDepth, (d.outline.prune maxDepth).renderTree text true
      = (Forest.walk (d.outline.prune maxDepth)).flatMap fun row =>
          row.renderAt (((bytes text).take row.node.start).count lineFeed) := by
  intro d table
  have hposition : ∀ token ∈ d.headers, table.position token.start
      = ⟨((bytes text).take token.start).count lineFeed, 0⟩ := by
    intro token htoken
    obtain ⟨hmem, hheader⟩ := List.mem_filter.1 htoken
    exact HeadingRules.position_of_mem hmem (TokenKind.ne_other_of_isHeader hheader)
  refine ⟨?_, ?_, ?_, ?_, ?_⟩
  · intro token hmem hother
    rw [HeadingRules.position_of_mem hmem hother]
  · intro token htoken
    obtain ⟨hmem, hheader⟩ := List.mem_filter.1 htoken
    exact HeadingRules.line_of_isHeader hmem hheader
  · -- a later position at the same column is on a later line
    obtain ⟨hascend, hinside⟩ := headersAscend_ofText rules text
    refine hascend.imp_of_mem ?_
    intro a b ha hb hlt
    have hbefore : (table.position a.start).Before (table.position b.start) :=
      LineTable.position_strictMono hlt (Nat.le_of_lt (hinside b hb))
    rw [hposition a ha, hposition b hb] at hbefore ⊢
    simp only [Position.Before, Nat.lt_irrefl, and_false, or_false] at hbefore
    exact hbefore
  · exact d.forall₂_headers_walk.imp fun token row hof => hof.start
  · intro maxDepth
    unfold Forest.renderTree
    apply List.flatMap_congr
    intro row hrow
    exact Row.render_of_position (position_of_mem_walk_prune hrow)

/-- A heading after a line with a character of two bytes, with a carriage return before its line
    feed, and a block after it that the end of the text closes. -/
theorem outline_lines_second_line :
    let text := ['é', '\n', '=', ' ', 'x', '\r', '\n', '-', '-', '-', '-']
    let d := ofText {} text
    let table := LineTable.ofText text
    let header : Token := ⟨.header 1, 3, 6⟩
    let block : Token := ⟨.codeBlock, 8, 12⟩
    (block ∈ d.tokens ∧ block.kind ≠ .other ∧ (table.position 8).column = 0) ∧
    (header ∈ d.headers ∧ ∃ lineStart, table.starts[(table.position 3).line]? = some lineStart ∧
      bytes (header.text text) = (lineBytes text lineStart).rdropWhile (· == carriageReturn)) := by
  intro text d table header block
  obtain ⟨hcolumns, hlines, -⟩ := outline_lines {} text
  have hblock : block ∈ d.tokens := by decide
  have hother : block.kind ≠ .other := by decide
  have hheader : header ∈ d.headers := by decide
  exact ⟨⟨hblock, hother, hcolumns block hblock hother⟩, hheader, hlines header hheader⟩

end Document

end DocOutline
