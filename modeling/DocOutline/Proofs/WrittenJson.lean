import DocOutline.Proofs.Readers
import DocOutline.Render.Json

set_option autoImplicit false

/-! # Reading the outline back from JSON

The outline as JSON holds titles, which may be any text, inside objects inside arrays inside
objects. What it was made from can be read back from it (`Forest.ofJson?`), for every forest and not
only for outlines of documents. Three things are needed:

* a string ends with the first quote that no backslash precedes, and a title is found again behind
  its escapes;
* a number ends with the comma after it;
* an array that goes on is told from one that ends, and an empty one from others, by one character.

So the same JSON is never written for two forests (`Forest.renderJson_faithful`). -/

namespace DocOutline

open Text Toml Reader

namespace Json

/-! ## Strings -/

/-- Takes a string after its opening quote, together with the closing one. -/
def readBody : Text → Option (Text × Text)
  | [] => none
  | '"' :: t => some ([], t)
  | '\\' :: 'u' :: h :: i :: j :: k :: t => do
    let first ← scalar? [h, i, j, k]
    let (s, rest) ← readBody t
    return (first :: s, rest)
  | '\\' :: e :: t => do
    let first ← shortEscape? e
    let (s, rest) ← readBody t
    return (first :: s, rest)
  | c :: t => do
    let (s, rest) ← readBody t
    return (c :: s, rest)

/-- The codes below 32 are written with two digits that count. -/
theorem scalar?_control {n : Nat} (h : n < 0x20) :
    scalar? ['0', '0', hexDigit (n / 16), hexDigit (n % 16)] = some (Char.ofNat n) := by
  revert h
  revert n
  decide

/-- A short escape stands for one character. -/
theorem readBody_short {e c : Char} {s t rest : Text} (h : readBody t = some (s, rest))
    (he : shortEscape? e = some c) : readBody ('\\' :: e :: t) = some (c :: s, rest) := by
  have hcode : e ≠ 'u' := by
    rintro rfl
    simp [shortEscape?] at he
  simp [readBody, hcode, he, h]

/-- One character of a string, however it is written, comes before the rest of the string. -/
theorem readBody_escape {s t rest : Text} (h : readBody t = some (s, rest)) (c : Char) :
    readBody (escape c ++ t) = some (c :: s, rest) := by
  have hcode : ∀ n, c.toNat = n → c = Char.ofNat n := by
    rintro n rfl
    exact (Char.ofNat_toNat c).symm
  unfold escape
  split_ifs with hquote hslash hb ht hn hf hr hcontrol
  · exact readBody_short h (by rw [hquote]; rfl)
  · exact readBody_short h (by rw [hslash]; rfl)
  · exact readBody_short h (by rw [hcode _ hb]; rfl)
  · exact readBody_short h (by rw [hcode _ ht]; rfl)
  · exact readBody_short h (by rw [hcode _ hn]; rfl)
  · exact readBody_short h (by rw [hcode _ hf]; rfl)
  · exact readBody_short h (by rw [hcode _ hr]; rfl)
  · have hscalar := scalar?_control hcontrol
    rw [Char.ofNat_toNat] at hscalar
    simp [readBody, hscalar, h]
  · simp [readBody, hslash, h]

/-- Takes a string. -/
def readString : Reader Text := do
  char '"'
  readBody

@[simp] theorem run_readString (s t : Text) : readString.run (string s ++ t) = some (s, t) := by
  have hbody : readBody (s.flatMap escape ++ '"' :: t) = some (s, t) := by
    induction s with
    | nil => simp [readBody]
    | cons c s ih =>
      rw [List.flatMap_cons, List.append_assoc]
      exact readBody_escape ih c
  have htext : string s ++ t = '"' :: (s.flatMap escape ++ '"' :: t) := by simp [string]
  rw [htext, readString, StateT.run_bind, run_char]
  exact hbody

/-! ## Sections -/

/-- What stands in front of the value of a member. -/
def label (depth : Nat) (key : String) : Text :=
  '\n' :: indent depth ++ string key.toList ++ [':', ' ']

theorem member_eq (depth : Nat) (key : String) (value : Text) :
    member depth key value = label depth key ++ value := rfl

/-- Takes a line break and the indentation of the next line. -/
def newline (depth : Nat) : Reader Unit := do
  char '\n'
  word (indent depth)

@[simp] theorem run_newline (depth : Nat) (t : Text) :
    (newline depth).run ('\n' :: (indent depth ++ t)) = some ((), t) := by
  simp [newline]

/-- Takes a member of an object with the given key. -/
def readMember {α : Type} (depth : Nat) (key : String) (value : Reader α) : Reader α := do
  word (label depth key)
  value

@[simp] theorem run_readMember {α : Type} (depth : Nat) (key : String) (value : Reader α)
    (t : Text) : (readMember depth key value).run (label depth key ++ t) = value.run t := by
  simp [readMember]

mutual
/-- Takes a section inside `depth` brackets. The fuel has to exceed the length of what is taken. -/
def readSection : (fuel depth : Nat) → Reader Section
  | 0, _ => failure
  | fuel + 1, depth => do
    char '{'
    let name ← readMember (depth + 1) "name" readString
    char ','
    let level ← readMember (depth + 1) "level" number
    char ','
    let start ← readMember (depth + 1) "start" number
    char ','
    let stop ← readMember (depth + 1) "end" number
    char ','
    let children ← readMember (depth + 1) "children" (readForest fuel (depth + 1))
    newline depth
    char '}'
    return ⟨name, level, start, stop, children⟩

/-- Takes a forest inside `depth` brackets. -/
def readForest : (fuel depth : Nat) → Reader (List Section)
  | 0, _ => failure
  | fuel + 1, depth => do
    char '['
    if (← peek) = some ']' then
      char ']'
      return []
    else
      newline (depth + 1)
      let first ← readSection fuel (depth + 1)
      let rest ← readRest fuel (depth + 1)
      newline depth
      char ']'
      return first :: rest

/-- Takes the further elements of an array inside `depth` brackets. -/
def readRest : (fuel depth : Nat) → Reader (List Section)
  | 0, _ => failure
  | fuel + 1, depth => do
    if (← peek) = some ',' then
      char ','
      newline depth
      let next ← readSection fuel depth
      let rest ← readRest fuel depth
      return next :: rest
    else return []
end

mutual
theorem run_readSection : ∀ (s : Section) (fuel depth : Nat) (t : Text),
    (s.json depth).length < fuel → (readSection fuel depth).run (s.json depth ++ t) = some (s, t)
  | _, 0, _, _, h => absurd h (Nat.not_lt_zero _)
  | ⟨name, level, start, stop, children⟩, fuel + 1, depth, t, h => by
    have hcomma : ','.isDigit = false := by decide
    simp only [Section.json, member_eq, List.append_assoc, List.cons_append, List.length_cons,
      List.length_append] at h ⊢
    have hchildren : ∀ rest, (readForest fuel (depth + 1)).run
        (Forest.json (depth + 1) children ++ rest) = some (children, rest) :=
      fun rest => run_readForest children fuel (depth + 1) rest (by omega)
    simp [readSection, hcomma, hchildren]

theorem run_readForest : ∀ (f : List Section) (fuel depth : Nat) (t : Text),
    (Forest.json depth f).length < fuel →
      (readForest fuel depth).run (Forest.json depth f ++ t) = some (f, t)
  | _, 0, _, _, h => absurd h (Nat.not_lt_zero _)
  | [], fuel + 1, depth, t, _ => by simp [Forest.json, readForest]
  | s :: rest, fuel + 1, depth, t, h => by
    simp only [Forest.json, List.append_assoc, List.cons_append, List.length_cons,
      List.length_append] at h ⊢
    have hfirst : ∀ more, (readSection fuel (depth + 1)).run (s.json (depth + 1) ++ more)
        = some (s, more) :=
      fun more => run_readSection s fuel (depth + 1) more (by omega)
    have hrest : ∀ more, (readRest fuel (depth + 1)).run
        (Forest.jsonRest (depth + 1) rest ++ '\n' :: more) = some (rest, '\n' :: more) :=
      fun more => run_readRest rest fuel (depth + 1) ('\n' :: more) (by omega) (by simp)
    simp [readForest, hfirst, hrest]

theorem run_readRest : ∀ (f : List Section) (fuel depth : Nat) (t : Text),
    (Forest.jsonRest depth f).length < fuel → t.head? ≠ some ',' →
      (readRest fuel depth).run (Forest.jsonRest depth f ++ t) = some (f, t)
  | _, 0, _, _, h, _ => absurd h (Nat.not_lt_zero _)
  | [], fuel + 1, depth, t, _, ht => by simp [Forest.jsonRest, readRest, ht]
  | s :: rest, fuel + 1, depth, t, h, ht => by
    simp only [Forest.jsonRest, List.append_assoc, List.cons_append, List.length_cons,
      List.length_append] at h ⊢
    have hnext : ∀ more, (readSection fuel depth).run (s.json depth ++ more) = some (s, more) :=
      fun more => run_readSection s fuel depth more (by omega)
    have hrest := run_readRest rest fuel depth t (by omega) ht
    simp [readRest, hnext, hrest]
end

end Json

namespace Forest

open Json

/-- The forest that is written as JSON. -/
def ofJson? (t : Text) : Option Forest := do
  let (f, rest) ← (readForest (t.length + 1) 0).run t
  if rest = ['\n'] then some f else none

theorem ofJson?_renderJson (f : Forest) : ofJson? f.renderJson = some f := by
  have hread : (readForest (f.renderJson.length + 1) 0).run f.renderJson = some (f, ['\n']) := by
    refine run_readForest f _ 0 ['\n'] ?_
    simp only [renderJson, List.length_append]
    omega
  simp [ofJson?, hread]

/-- **The outline as JSON is faithful.** For all forests, whatever the titles, levels, extents and
    nesting of their sections, what is written can be read back and gives all of these. So the same
    JSON is written for two forests exactly if they are the same. -/
theorem renderJson_faithful :
    (∀ f : Forest, ofJson? f.renderJson = some f) ∧
    ∀ f g : Forest, f.renderJson = g.renderJson ↔ f = g := by
  refine ⟨ofJson?_renderJson, ?_⟩
  intro f g
  exact written_inj ofJson?_renderJson

end Forest

end DocOutline
