import DocOutline.Proofs.HeaderLines
import DocOutline.Proofs.Readers

set_option autoImplicit false

/-! # Reading the token dump

A line of the token dump runs a kind and three numbers together, with little between them: the level
of a heading stands right behind the word for it, and the offsets are told apart by two dots. Still
the dump can be read back, line by line (`Token.ofDump?`), whatever the tokens are. So no two lists
of tokens have the same dump (`Token.dump_faithful`). -/

namespace DocOutline

open Text Toml Reader

/-! ## Kinds -/

/-- The kind with the given name in the dump. -/
def TokenKind.ofLabel? (label : Text) : Option TokenKind :=
  if label = "code_block".toList then some .codeBlock
  else if label = "other".toList then some .other
  else if "header".toList.isPrefixOf label then (toNat? (label.drop 6)).map .header
  else none

theorem TokenKind.ofLabel?_label (kind : TokenKind) : ofLabel? kind.label = some kind := by
  cases kind with
  | header level =>
    have hcode : "header".toList ++ ofNat level ≠ "code_block".toList := by simp
    have hother : "header".toList ++ ofNat level ≠ "other".toList := by simp
    have hprefix : "header".toList.isPrefixOf ("header".toList ++ ofNat level) = true :=
      List.isPrefixOf_iff_prefix.2 (List.prefix_append ..)
    have hdrop : ("header".toList ++ ofNat level).drop 6 = ofNat level := by simp
    unfold label ofLabel?
    rw [if_neg hcode, if_neg hother, if_pos hprefix, hdrop, toNat?_ofNat, Option.map_some]
  | codeBlock => decide
  | other => decide

/-- The name of a kind ends with the first blank. -/
theorem TokenKind.ne_blank_of_mem_label {kind : TokenKind} {c : Char} (h : c ∈ kind.label) :
    (c != ' ') = true := by
  rw [bne_iff_ne]
  rintro rfl
  cases kind with
  | header level =>
    rcases List.mem_append.1 h with hword | hlevel
    · exact absurd hword (by decide)
    · exact absurd (isDigit_of_mem_ofNat hlevel) (by decide)
  | codeBlock => exact absurd h (by decide)
  | other => exact absurd h (by decide)

/-! ## Lines -/

namespace Token

/-- Takes the line of one token. -/
def readLine : Reader Token := do
  let label ← Reader.takeWhile (· != ' ')
  let kind ← StateT.lift (TokenKind.ofLabel? label)
  char ' '
  let start ← number
  word ['.', '.']
  let stop ← number
  char '\n'
  return ⟨kind, start, stop⟩

theorem run_readLine (token : Token) (t : Text) :
    readLine.run (token.dumpLine ++ t) = some (token, t) := by
  obtain ⟨kind, start, stop⟩ := token
  have hlabel : ∀ rest : Text, (Reader.takeWhile (· != ' ')).run (kind.label ++ ' ' :: rest)
      = some (kind.label, ' ' :: rest) := by
    intro rest
    exact run_takeWhile (fun _ => TokenKind.ne_blank_of_mem_label) (by simp)
  have hdots : ∀ rest : Text, (word ['.', '.']).run ('.' :: '.' :: rest) = some ((), rest) :=
    run_word ['.', '.']
  have hdot : '.'.isDigit = false := by decide
  have hfeed : '\n'.isDigit = false := by decide
  simp [readLine, dumpLine, hlabel, hdots, hdot, hfeed, TokenKind.ofLabel?_label]

/-! ## The dump -/

/-- The tokens that a dump lists. -/
def ofDump? (dump : Text) : Option (List Token) :=
  (pieces dump).mapM fun line => (readLine.run line).map Prod.fst

theorem ofDump?_dump (tokens : List Token) : ofDump? (dump tokens) = some tokens := by
  rw [ofDump?, pieces_dump]
  induction tokens with
  | nil => rfl
  | cons token tokens ih =>
    have hline := run_readLine token []
    rw [List.append_nil] at hline
    simp [hline, ih]

/-- **The token dump is faithful.** For all lists of tokens, of any kinds and levels and at any
    offsets, the dump can be read back and gives the kinds, levels, starts and ends of all tokens.
    So the dumps of two documents are the same exactly if their tokens are. -/
theorem dump_faithful :
    (∀ tokens, ofDump? (dump tokens) = some tokens) ∧
    ∀ d d' : Document, dump d.tokens = dump d'.tokens ↔ d.tokens = d'.tokens := by
  refine ⟨ofDump?_dump, ?_⟩
  intro d d'
  exact written_inj ofDump?_dump

end Token

end DocOutline
