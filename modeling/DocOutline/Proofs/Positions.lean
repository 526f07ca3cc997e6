import DocOutline.LineTable
import DocOutline.Proofs.Bytes

set_option autoImplicit false

/-! # Lines and columns

A line table answers from a list of offsets by bisection. Here its answers are compared with the
bytes of the text: the line of an offset is the number of line feeds before it, and the column the
number of bytes since the last of them (`LineTable.position_exact`). Offsets inside a character are
offsets like any other, since no byte of a longer character is a line feed.

The table is sorted, so the search in it has only one right answer (`LineTable.Splits.unique`). The
answer is read off from cutting the bytes in two at the offset: what starts in the first part stands
in front of the table, and what starts in the second part after it. -/

namespace DocOutline

open Text

/-! ## The bytes of a text -/

namespace Text

/-- The UTF-8 form of a text. -/
def bytes (t : Text) : List UInt8 := t.flatMap String.utf8EncodeChar

/-- The line feed as a byte. -/
def lineFeed : UInt8 := 10

@[simp] theorem bytes_nil : bytes [] = [] := rfl

@[simp] theorem bytes_cons (c : Char) (t : Text) :
    bytes (c :: t) = String.utf8EncodeChar c ++ bytes t := rfl

@[simp] theorem length_bytes (t : Text) : (bytes t).length = byteLength t := by
  induction t with
  | nil => rfl
  | cons c t ih => simp [ih]

@[simp] theorem bytes_append (s t : Text) : bytes (s ++ t) = bytes s ++ bytes t :=
  List.flatMap_append

theorem ascii_eq_ofNat_iff {n : Nat} (hn : n < 128) (m : Nat) :
    UInt8.ofNat n = UInt8.ofNat m ↔ m % 256 = n := by
  rw [← UInt8.toNat_inj, UInt8.toNat_ofNat', UInt8.toNat_ofNat', Nat.mod_eq_of_lt (by omega)]
  exact eq_comm

/-- No other character has an ASCII character among its bytes: the bytes of longer characters all
    lie above the ASCII range. -/
theorem ascii_notMem_utf8EncodeChar {a c : Char} (ha : a.toNat < 128) (h : c ≠ a) :
    UInt8.ofNat a.toNat ∉ String.utf8EncodeChar c := by
  have hval : c.val.toNat ≠ a.toNat := by
    intro heq
    exact h (Char.ext (UInt32.toNat_inj.1 heq))
  simp only [String.utf8EncodeChar]
  split_ifs <;>
    simp only [List.mem_cons, List.not_mem_nil, or_false, ascii_eq_ofNat_iff ha] <;> omega

theorem lineFeed_notMem_utf8EncodeChar {c : Char} (h : c ≠ '\n') :
    lineFeed ∉ String.utf8EncodeChar c := @ascii_notMem_utf8EncodeChar '\n' c (by decide) h

end Text

/-! ## Where lines start -/

/-- Offsets just after the line feeds among bytes of which the first has the offset `pos`. -/
def feedEnds (pos : Nat) : List UInt8 → List Nat
  | [] => []
  | b :: bs => if b = lineFeed then (pos + 1) :: feedEnds (pos + 1) bs else feedEnds (pos + 1) bs

theorem feedEnds_append (pos : Nat) (front back : List UInt8) :
    feedEnds pos (front ++ back) = feedEnds pos front ++ feedEnds (pos + front.length) back := by
  induction front generalizing pos with
  | nil => rfl
  | cons b front ih =>
    simp only [List.cons_append, feedEnds, ih, List.length_cons, Nat.add_assoc, Nat.add_comm 1]
    split <;> rfl

theorem feedEnds_eq_nil {bs : List UInt8} (h : lineFeed ∉ bs) (pos : Nat) :
    feedEnds pos bs = [] := by
  induction bs generalizing pos with
  | nil => rfl
  | cons b bs ih =>
    obtain ⟨hb, hbs⟩ := List.ne_and_not_mem_of_not_mem_cons h
    rw [feedEnds, if_neg (Ne.symm hb), ih hbs]

theorem length_feedEnds (pos : Nat) (bs : List UInt8) :
    (feedEnds pos bs).length = bs.count lineFeed := by
  induction bs generalizing pos with
  | nil => rfl
  | cons b bs ih =>
    rw [feedEnds, List.count_cons]
    split
    · simp [*]
    · simp [*]

theorem bounds_of_mem_feedEnds {pos n : Nat} {bs : List UInt8} (h : n ∈ feedEnds pos bs) :
    pos < n ∧ n ≤ pos + bs.length := by
  induction bs generalizing pos with
  | nil => simp [feedEnds] at h
  | cons b bs ih =>
    rw [feedEnds] at h
    rw [List.length_cons]
    split at h
    · rcases List.mem_cons.1 h with rfl | h
      · omega
      · have := ih h
        omega
    · have := ih h
      omega

theorem pairwise_feedEnds (pos : Nat) (bs : List UInt8) :
    (pos :: feedEnds pos bs).Pairwise (· < ·) := by
  refine List.Pairwise.cons (fun n hn => (bounds_of_mem_feedEnds hn).1) ?_
  induction bs generalizing pos with
  | nil => exact List.Pairwise.nil
  | cons b bs ih =>
    rw [feedEnds]
    split
    · exact (ih (pos + 1)).cons fun n hn => (bounds_of_mem_feedEnds hn).1
    · exact ih (pos + 1)

/-- The last line starts just after the last line feed. -/
theorem getLast?_feedEnds (pos : Nat) (bs : List UInt8) :
    (pos :: feedEnds pos bs).getLast? = some (pos + (bs.rdropWhile (· != lineFeed)).length) := by
  induction bs using List.reverseRecOn with
  | nil => simp [feedEnds]
  | append_singleton bs b ih =>
    rw [feedEnds_append, List.rdropWhile_concat]
    by_cases hb : b = lineFeed
    · subst hb
      simp [feedEnds, List.getLast?_cons, Nat.add_assoc]
    · have hnone : feedEnds (pos + bs.length) [b] = [] :=
        feedEnds_eq_nil (by simpa using Ne.symm hb) _
      rw [hnone, List.append_nil, if_pos (by simpa using hb), ih]

/-- The breaks of a line table are the line feeds among the bytes. -/
theorem LineTable.breaksFrom_eq (pos : Nat) (t : Text) :
    LineTable.breaksFrom pos t = feedEnds pos (bytes t) := by
  induction t generalizing pos with
  | nil => rfl
  | cons c t ih =>
    rw [LineTable.breaksFrom, bytes_cons, feedEnds_append, String.length_utf8EncodeChar, ih]
    by_cases hc : c = '\n'
    · subst hc
      rfl
    · rw [feedEnds_eq_nil (lineFeed_notMem_utf8EncodeChar hc), if_neg hc, List.nil_append]

/-! ## Bisection -/

namespace LineTable

/-- The entries before `n` are those that are at most `x`. -/
def Splits (a : Array Nat) (x n : Nat) : Prop :=
  n ≤ a.size ∧ ∀ i v, a[i]? = some v → (i < n ↔ v ≤ x)

theorem Splits.unique {a : Array Nat} {x m n : Nat} (hm : Splits a x m) (hn : Splits a x n) :
    m = n := by
  obtain ⟨hmle, hm⟩ := hm
  obtain ⟨hnle, hn⟩ := hn
  rcases Nat.lt_trichotomy m n with hlt | heq | hlt
  · have hentry := Array.getElem?_eq_getElem (Nat.lt_of_lt_of_le hlt hnle)
    have := (hm m _ hentry).2 ((hn m _ hentry).1 hlt)
    omega
  · exact heq
  · have hentry := Array.getElem?_eq_getElem (Nat.lt_of_lt_of_le hlt hmle)
    have := (hn n _ hentry).2 ((hm n _ hentry).1 hlt)
    omega

/-- Two parts of a table, of which the first has the entries that are at most `x`. -/
theorem splits_append {front back : List Nat} {x : Nat} (hfront : ∀ v ∈ front, v ≤ x)
    (hback : ∀ v ∈ back, x < v) : Splits (front ++ back).toArray x front.length := by
  refine ⟨by simp, fun i v hv => ?_⟩
  rw [List.getElem?_toArray] at hv
  by_cases hi : i < front.length
  · rw [List.getElem?_append_left hi] at hv
    simp [hi, hfront v (List.mem_of_getElem? hv)]
  · rw [List.getElem?_append_right (by omega)] at hv
    have := hback v (List.mem_of_getElem? hv)
    omega

theorem lt_of_sorted {a : Array Nat} (hsorted : a.toList.Pairwise (· < ·)) {i j v w : Nat}
    (hij : i < j) (hv : a[i]? = some v) (hw : a[j]? = some w) : v < w := by
  obtain ⟨hi, rfl⟩ := Array.getElem?_eq_some_iff.1 hv
  obtain ⟨hj, rfl⟩ := Array.getElem?_eq_some_iff.1 hw
  exact List.pairwise_iff_getElem.1 hsorted i j hi hj hij

theorem getElem?_eq_getD {a : Array Nat} {i : Nat} (h : i < a.size) :
    a[i]? = some (a.getD i 0) := by
  rw [Array.getD_eq_getD_getElem?, Array.getElem?_eq_getElem h, Option.getD_some]

/-- Bisection finds where a sorted array splits, if it is known of the entries outside of `lo..hi`
    on which side they are. -/
theorem splits_upperBound {a : Array Nat} (hsorted : a.toList.Pairwise (· < ·)) (x lo hi : Nat)
    (hle : lo ≤ hi) (hhi : hi ≤ a.size) (hbelow : ∀ i v, i < lo → a[i]? = some v → v ≤ x)
    (habove : ∀ i v, hi ≤ i → a[i]? = some v → x < v) : Splits a x (upperBound a x lo hi) := by
  fun_induction upperBound a x lo hi with
  | case1 lo hi hlt mid hmid ih =>
    -- the entry in the middle is on the lower side, and with it all before it
    have hentry : a[mid]? = some (a.getD mid 0) := getElem?_eq_getD (by omega)
    refine ih (by omega) hhi (fun i v hi hv => ?_) habove
    rcases Nat.lt_or_eq_of_le (Nat.le_of_lt_succ hi) with hi | rfl
    · have := lt_of_sorted hsorted hi hv hentry
      omega
    · rw [hentry, Option.some.injEq] at hv
      omega
  | case2 lo hi hlt mid hmid ih =>
    have hentry : a[mid]? = some (a.getD mid 0) := getElem?_eq_getD (by omega)
    refine ih (by omega) (by omega) hbelow (fun i v hi hv => ?_)
    rcases Nat.lt_or_eq_of_le hi with hi | rfl
    · have := lt_of_sorted hsorted hi hentry hv
      omega
    · rw [hentry, Option.some.injEq] at hv
      omega
  | case3 lo hi hlt =>
    obtain rfl : lo = hi := by omega
    refine ⟨hhi, fun i v hv => ⟨fun hi => hbelow i v hi hv, fun hvx => ?_⟩⟩
    by_contra hi
    have := habove i v (by omega) hv
    omega

/-! ## Positions -/

end LineTable

/-- The position `p` comes before `q`: on an earlier line, or further left on the same one. -/
def Position.Before (p q : Position) : Prop :=
  p.line < q.line ∨ p.line = q.line ∧ p.column < q.column

theorem Position.Before.ne {p q : Position} (h : p.Before q) : p ≠ q := by
  rintro rfl
  unfold Position.Before at h
  omega

namespace LineTable

theorem toList_starts (t : Text) : (ofText t).starts.toList = 0 :: feedEnds 0 (bytes t) := by
  rw [ofText, breaksFrom_eq]

theorem sorted_starts (t : Text) : (ofText t).starts.toList.Pairwise (· < ·) := by
  rw [toList_starts]
  exact pairwise_feedEnds 0 (bytes t)

/-- The table of a text that is cut in two: the lines that start in the first part, the first line
    among them, and those that start in the second. -/
theorem starts_eq_append {t : Text} {front back : List UInt8} (h : bytes t = front ++ back) :
    (ofText t).starts
      = ((0 :: feedEnds 0 front) ++ feedEnds front.length back).toArray := by
  rw [ofText, breaksFrom_eq, h, feedEnds_append, Nat.zero_add, List.cons_append]

/-- At the end of the first part, the table splits after the lines that start in it. -/
theorem splits_starts {t : Text} {front back : List UInt8} (h : bytes t = front ++ back) :
    Splits (ofText t).starts front.length (front.count lineFeed + 1) := by
  have hsplits : Splits ((0 :: feedEnds 0 front) ++ feedEnds front.length back).toArray
      front.length (0 :: feedEnds 0 front).length := by
    refine splits_append (fun v hv => ?_) fun v hv => (bounds_of_mem_feedEnds hv).1
    rcases List.mem_cons.1 hv with rfl | hv
    · exact Nat.zero_le _
    · simpa using (bounds_of_mem_feedEnds hv).2
  rwa [List.length_cons, length_feedEnds, ← starts_eq_append h] at hsplits

/-- The last line that starts in the first part starts after its last line feed. -/
theorem getElem?_starts {t : Text} {front back : List UInt8} (h : bytes t = front ++ back) :
    (ofText t).starts[front.count lineFeed]?
      = some (front.rdropWhile (· != lineFeed)).length := by
  have hlast := getLast?_feedEnds 0 front
  rw [List.getLast?_eq_getElem?, List.length_cons, length_feedEnds, Nat.zero_add,
    Nat.add_sub_cancel] at hlast
  rw [starts_eq_append h, List.getElem?_toArray, List.getElem?_append_left, hlast]
  rw [List.length_cons, length_feedEnds]
  exact Nat.lt_succ_self _

/-- Bisection finds the line after the one at the end of the first part. -/
theorem upperBound_starts {t : Text} {front back : List UInt8} (h : bytes t = front ++ back) :
    upperBound (ofText t).starts front.length 0 (ofText t).starts.size
      = front.count lineFeed + 1 := by
  refine Splits.unique ?_ (splits_starts h)
  refine splits_upperBound (sorted_starts t) _ 0 _ (Nat.zero_le _) (Nat.le_refl _) ?_ ?_
  · intro i v hi
    omega
  · intro i v hi hv
    rw [Array.getElem?_eq_none hi] at hv
    exact absurd hv (by simp)

/-- The position of an offset, from the bytes before it. -/
theorem position_eq {t : Text} {front back : List UInt8} (h : bytes t = front ++ back)
    (offset : Nat) (hoffset : min offset (byteLength t) = front.length) :
    (ofText t).position offset
      = ⟨front.count lineFeed, front.length - (front.rdropWhile (· != lineFeed)).length⟩ := by
  have hlength : (ofText t).length = byteLength t := rfl
  simp only [position, hlength, hoffset, upperBound_starts h, Nat.add_sub_cancel,
    Array.getD_eq_getD_getElem?, getElem?_starts h, Option.getD_some]

theorem length_take_bytes (t : Text) (offset : Nat) :
    ((bytes t).take (min offset (byteLength t))).length = min offset (byteLength t) := by
  rw [List.length_take, length_bytes]
  omega

theorem lineStart_le (front : List UInt8) :
    (front.rdropWhile (· != lineFeed)).length ≤ front.length :=
  (List.rdropWhile_prefix _ front).length_le

/-- More bytes lead to a later position: to a later line if there is a line feed among them, and
    else further right on the same one. -/
theorem position_before {t : Text} {front more back : List UInt8}
    (h : bytes t = front ++ (more ++ back)) (hmore : more ≠ []) :
    ((ofText t).position front.length).Before ((ofText t).position (front ++ more).length) := by
  have hlength := congrArg List.length h
  simp only [length_bytes, List.length_append] at hlength
  have hfirst := position_eq h front.length (by omega)
  have hsecond := position_eq (h.trans (List.append_assoc ..).symm) (front ++ more).length
    (by rw [List.length_append]; omega)
  rw [hfirst, hsecond, List.count_append]
  by_cases hfeed : lineFeed ∈ more
  · have hpos := List.count_pos_iff.2 hfeed
    exact Or.inl (Nat.lt_add_of_pos_right hpos)
  · -- without a line feed among them, further bytes are on the same line
    have hsame : ∀ b ∈ more, (b != lineFeed) = true := by
      intro b hb
      rw [bne_iff_ne]
      rintro rfl
      exact hfeed hb
    have hle := lineStart_le front
    have hpos := List.length_pos_iff.2 hmore
    refine Or.inr ⟨by rw [List.count_eq_zero_of_not_mem hfeed, Nat.add_zero], ?_⟩
    rw [rdropWhile_append_of_forall hsame, List.length_append]
    dsimp only
    omega

theorem position_strictMono {t : Text} {a b : Nat} (hab : a < b) (hb : b ≤ byteLength t) :
    ((ofText t).position a).Before ((ofText t).position b) := by
  have hlength := length_bytes t
  have hsplit : bytes t
      = (bytes t).take a ++ (((bytes t).drop a).take (b - a) ++ ((bytes t).drop a).drop (b - a)) := by
    rw [List.take_append_drop, List.take_append_drop]
  have hmore : ((bytes t).drop a).take (b - a) ≠ [] := by
    rw [← List.length_pos_iff, List.length_take, List.length_drop]
    omega
  have hbefore := position_before hsplit hmore
  rw [List.length_append, List.length_take, List.length_take, List.length_drop] at hbefore
  rwa [show min a (bytes t).length = a by omega,
    show a + min (b - a) ((bytes t).length - a) = b by omega] at hbefore

/-- **Lines and columns.** For every text and every offset, which may lie inside a character or past
    the end and counts as the end then:

    * the line is the number of line feeds among the bytes before the offset, and the column the
      distance from the byte after the last of them, or from the start of the text;
    * the entry that is looked up is in the table, and neither subtraction goes below zero, in
      whatever way the offset is searched for: where it stands in the table, or where it would have
      to be put in;
    * there is one line more than line feeds;
    * from one offset of the text to a later one the position moves on, so no two have the same. -/
theorem position_exact (t : Text) :
    let table := ofText t
    (∀ offset,
      let clamped := min offset (byteLength t)
      let before := (bytes t).take clamped
      let lineStart := (before.rdropWhile (· != lineFeed)).length
      let line := (table.position offset).line
      line = before.count lineFeed ∧
      (table.position offset).column = clamped - lineStart ∧
      table.starts[line]? = some lineStart ∧ lineStart ≤ clamped ∧
      upperBound table.starts clamped 0 table.starts.size = line + 1 ∧
      (∀ i, table.starts[i]? = some clamped → i = line) ∧
      ∀ i ≤ table.starts.size, (∀ j v, table.starts[j]? = some v →
        (j < i → v < clamped) ∧ (i ≤ j → clamped < v)) → 0 < i ∧ i - 1 = line) ∧
    table.lineCount = 1 + (bytes t).count lineFeed ∧
    (∀ a b, a < b → b ≤ byteLength t → (table.position a).Before (table.position b)) ∧
    ∀ a b, a ≤ byteLength t → b ≤ byteLength t → table.position a = table.position b → a = b := by
  intro table
  refine ⟨fun offset => ?_, ?_, fun a b => position_strictMono, fun a b ha hb heq => ?_⟩
  · intro clamped before lineStart line
    have hbefore : before.length = clamped := length_take_bytes t offset
    have hsplit : bytes t = before ++ (bytes t).drop clamped := (List.take_append_drop ..).symm
    have hposition := position_eq hsplit offset hbefore.symm
    have hline : line = before.count lineFeed := congrArg Position.line hposition
    have hstart : table.starts[line]? = some lineStart := by rw [hline]; exact getElem?_starts hsplit
    have hle : lineStart ≤ clamped := by
      rw [← hbefore]
      exact lineStart_le before
    have hsplits : Splits table.starts clamped (line + 1) := by
      rw [hline, ← hbefore]
      exact splits_starts hsplit
    refine ⟨hline, ?_, hstart, hle, ?_, fun i hi => ?_, fun i hi hsides => ?_⟩
    · rw [← hbefore]
      exact congrArg Position.column hposition
    · rw [hline, ← hbefore]
      exact upperBound_starts hsplit
    · -- a line that starts at the offset itself is the last one that starts no later
      have hlast := (hsplits.2 i clamped hi).2 (Nat.le_refl _)
      rcases Nat.lt_or_eq_of_le (Nat.le_of_lt_succ hlast) with hlt | heq
      · have := lt_of_sorted (sorted_starts t) hlt hi hstart
        omega
      · exact heq
    · have hother : Splits table.starts clamped i := by
        refine ⟨hi, fun j v hv => ?_⟩
        obtain ⟨hlow, hhigh⟩ := hsides j v hv
        omega
      have := hother.unique hsplits
      omega
  · show table.starts.size = _
    rw [← Array.length_toList, toList_starts, List.length_cons, length_feedEnds, Nat.add_comm]
  · rcases Nat.lt_trichotomy a b with hlt | heq' | hlt
    · exact absurd heq (position_strictMono hlt hb).ne
    · exact heq'
    · exact absurd heq.symm (position_strictMono hlt ha).ne

/-- An offset inside a character, where no line starts, and one where a line does. -/
theorem position_exact_wide :
    let text := ['é', '\n', 'b']
    let table := ofText text
    (table.position 1).line = 0 ∧ (table.position 3).line = 1 ∧
    (table.starts[1]? = some 3 ∧ 1 = (table.position 3).line) ∧
    ((∀ j v, table.starts[j]? = some v → (j < 1 → v < 1) ∧ (1 ≤ j → 1 < v)) ∧
      0 < 1 ∧ 1 - 1 = (table.position 1).line) ∧
    (1 < 3 ∧ 3 ≤ byteLength text ∧ (table.position 1).Before (table.position 3)) ∧
    table.position 1 ≠ table.position 3 := by
  intro text table
  obtain ⟨hlookup, -, hbefore, hinj⟩ := position_exact text
  have hstarts : table.starts = #[0, 3] := rfl
  have hline : table.starts[1]? = some 3 := by rw [hstarts]; rfl
  have hsides : ∀ j v, table.starts[j]? = some v → (j < 1 → v < 1) ∧ (1 ≤ j → 1 < v) := by
    intro j v hv
    rw [hstarts] at hv
    match j with
    | 0 => simp at hv; omega
    | 1 => simp at hv; omega
    | j + 2 => simp at hv
  obtain ⟨hzero, -, -, -, -, -, hinsert⟩ := hlookup 1
  obtain ⟨hone, -, -, -, -, hfound, -⟩ := hlookup 3
  exact ⟨hzero.trans (by decide), hone.trans (by decide), ⟨hline, hfound 1 hline⟩,
    ⟨hsides, hinsert 1 (by rw [hstarts]; decide) hsides⟩,
    ⟨by decide, by decide, hbefore 1 3 (by decide) (by decide)⟩,
    fun h => absurd (hinj 1 3 (by decide) (by decide) h) (by decide)⟩

end LineTable

end DocOutline
