import DocOutline.Proofs.Bounds
import DocOutline.Proofs.SettingsFile

set_option autoImplicit false

/-! # What settles the outcome of a settings file

A file whose groups are tables is malformed exactly if one of the five settings is given by a value
that does not stand for anything, wherever it is; else the five settle the outcome
(`Settings.ofToml_settled`). Two files that agree on the five have the same outcome, whatever else
they hold and in whatever order. -/

namespace DocOutline

open Text Toml

/-! ## Values that are alike -/

namespace Toml

mutual
/-- Values that are the same up to the order of keys. What floats and dates hold is not compared,
    since no setting holds one. -/
inductive Value.Alike : Value → Value → Prop
  | string (t : Text) : Value.Alike (.string t) (.string t)
  | integer (n : Int) : Value.Alike (.integer n) (.integer n)
  | float (written written' : Text) : Value.Alike (.float written) (.float written')
  | boolean (b : Bool) : Value.Alike (.boolean b) (.boolean b)
  | datetime (written written' : Text) : Value.Alike (.datetime written) (.datetime written')
  | array {items items' : List Value} (h : ItemsAlike items items') :
      Value.Alike (.array items) (.array items')
  | table {entries entries' : List (Text × Value)} (h : EntriesAlike entries entries') :
      Value.Alike (.table entries) (.table entries')

/-- Every item is like the one at its place among the other ones. -/
inductive ItemsAlike : List Value → List Value → Prop
  | nil : ItemsAlike [] []
  | cons {v v' : Value} {items items' : List Value} (hv : Value.Alike v v')
      (hrest : ItemsAlike items items') : ItemsAlike (v :: items) (v' :: items')

/-- Every entry has its counterpart somewhere among the other ones. -/
inductive EntriesAlike : List (Text × Value) → List (Text × Value) → Prop
  | nil : EntriesAlike [] []
  | cons {key : Text} {v v' : Value} {entries front back : List (Text × Value)}
      (hv : Value.Alike v v') (hrest : EntriesAlike entries (front ++ back)) :
      EntriesAlike ((key, v) :: entries) (front ++ (key, v') :: back)
end

mutual
theorem Value.Alike.refl : ∀ v : Value, v.Alike v
  | .string t => .string t
  | .integer n => .integer n
  | .float written => .float written written
  | .boolean b => .boolean b
  | .datetime written => .datetime written written
  | .array items => .array (ItemsAlike.refl items)
  | .table entries => .table (EntriesAlike.refl entries)

theorem ItemsAlike.refl : ∀ items : List Value, ItemsAlike items items
  | [] => .nil
  | v :: items => .cons (Value.Alike.refl v) (ItemsAlike.refl items)

theorem EntriesAlike.refl : ∀ entries : List (Text × Value), EntriesAlike entries entries
  | [] => .nil
  | (_, v) :: entries =>
    @EntriesAlike.cons _ v v entries [] entries (Value.Alike.refl v) (EntriesAlike.refl entries)
end

theorem ItemsAlike.eq_nil_iff {items items' : List Value} (h : ItemsAlike items items') :
    items = [] ↔ items' = [] := by
  cases h with
  | nil => simp
  | cons => simp

theorem EntriesAlike.eq_nil_iff {entries entries' : List (Text × Value)}
    (h : EntriesAlike entries entries') : entries = [] ↔ entries' = [] := by
  cases h with
  | nil => simp
  | cons => simp

/-- A value without contents has no other values like it. -/
theorem Value.Alike.eq_hollow_iff {v v' hollow : Value} (h : v.Alike v')
    (hhollow : hollow = .table [] ∨ hollow = .array []) : v = hollow ↔ v' = hollow := by
  rcases hhollow with rfl | rfl
  · cases h with
    | table h => simpa using h.eq_nil_iff
    | _ => simp
  · cases h with
    | array h => simpa using h.eq_nil_iff
    | _ => simp

/-- A table with one key, whose value has no contents, has no other tables like it. -/
theorem EntriesAlike.eq_singleton_iff {entries entries' : List (Text × Value)} {hollow : Value}
    (h : EntriesAlike entries entries') (hhollow : hollow = .table [] ∨ hollow = .array [])
    (key : Text) : entries = [(key, hollow)] ↔ entries' = [(key, hollow)] := by
  cases h with
  | nil => simp
  | @cons key' v v' entries front back hv hrest =>
    have hnone : entries = [] ↔ front = [] ∧ back = [] := by simpa using hrest.eq_nil_iff
    have hempty := hv.eq_hollow_iff hhollow
    cases front with
    | nil => simp [hempty, hnone]
    | cons entry front => simp [hnone]

end Toml

/-- Values that are alike stand for the same. -/
theorem Setting.stands_of_alike {v v' : Value} (h : v.Alike v') {setting : Setting}
    {x : setting.Content} : setting.Stands v x ↔ setting.Stands v' x := by
  cases h with
  | table h =>
    cases setting with
    | format => simp [Setting.Stands, h.eq_singleton_iff]
    | _ => simp [Setting.Stands]
  | _ => cases setting <;> simp [Setting.Stands]

theorem Setting.given_of_alike {entry entry' : Option Value}
    (h : Option.Rel Value.Alike entry entry') {setting : Setting} {x : setting.Content} :
    setting.Given entry x ↔ setting.Given entry' x := by
  cases h with
  | some hv => exact Setting.stands_of_alike hv
  | none => exact Iff.rfl

/-! ## Groups that are tables -/

/-- The groups of settings that are in a file are tables, however they are written. -/
def Toml.Table.GroupsAreTables (doc : Table) : Prop :=
  ∀ (setting : Setting) (v : Value), doc.get? setting.group = some v →
    ∃ entries, v = .table entries

namespace Settings

theorem groupsFit_of_tables {doc : Table} (h : doc.GroupsAreTables) : doc.GroupsFit := by
  intro setting v hv
  obtain ⟨entries, rfl⟩ := h setting v hv
  trivial

theorem decode?_eq_some_iff_givenBy {doc : Table} (hdoc : doc.GroupsAreTables) {s : Settings} :
    decode? doc = some s ↔ s.GivenBy doc := by
  rw [decode?_eq_some_iff, and_iff_right (groupsFit_of_tables hdoc)]

/-- With tables for groups, all that can be wrong is the value of a setting. -/
theorem decode?_eq_none_iff_value {doc : Table} (hdoc : doc.GroupsAreTables) :
    decode? doc = none ↔
      ∃ (setting : Setting) (v : Value),
        setting.entry? doc = some v ∧ ¬ ∃ x, setting.Stands v x := by
  rw [decode?_eq_none_iff]
  refine or_iff_right ?_
  rintro ⟨setting, v, hv, hgroup⟩
  exact hgroup (groupsFit_of_tables hdoc setting v hv)

/-- Files that agree on the settings give the same. -/
theorem decode?_of_alike {doc doc' : Table} (hdoc : doc.GroupsAreTables)
    (hdoc' : doc'.GroupsAreTables)
    (h : ∀ setting : Setting, Option.Rel Value.Alike (setting.entry? doc) (setting.entry? doc')) :
    decode? doc = decode? doc' := by
  refine Option.ext fun s => ?_
  simp only [decode?_eq_some_iff_givenBy hdoc, decode?_eq_some_iff_givenBy hdoc', GivenBy,
    Setting.given_of_alike (h _)]

/-! ## The outcome -/

/-- **Five values settle the outcome of a settings file.** For every text that is TOML and in which
    the two groups, where they are there, are tables:

    * it is malformed exactly if one of the five settings is there with a value that does not stand
      for anything;
    * it is invalid exactly if all of them can be read, and the deepest level that they give is not
      one of the six there are;
    * it gives settings exactly if these have for each of the five what is given for it, or the
      default, and the deepest level is one of the six.

    For two such texts that agree on the five settings, on whether they are there and up to the
    order of keys on their values, the outcome is the same. -/
theorem ofToml_settled :
    (∀ (t : Text) (doc : Table), parse? t = some doc → doc.GroupsAreTables →
      (ofToml t = .error .malformed ↔
        ∃ (setting : Setting) (v : Value),
          setting.entry? doc = some v ∧ ¬ ∃ x, setting.Stands v x) ∧
      (∀ e, ofToml t = .error (.invalid e) ↔
        ∃ s : Settings, s.GivenBy doc ∧ ¬ s.headings.InRange ∧
          e = .levelOutOfRange s.headings.maxLevel) ∧
      ∀ s, ofToml t = .ok s ↔ s.GivenBy doc ∧ s.headings.InRange) ∧
    ∀ (t t' : Text) (doc doc' : Table), parse? t = some doc → parse? t' = some doc' →
      doc.GroupsAreTables → doc'.GroupsAreTables →
      (∀ setting : Setting, Option.Rel Value.Alike (setting.entry? doc) (setting.entry? doc')) →
      ofToml t = ofToml t' := by
  constructor
  · intro t doc hparse hdoc
    rw [← decode?_eq_none_iff_value hdoc]
    simp only [← decode?_eq_some_iff_givenBy hdoc]
    cases hdecode : decode? doc with
    | none =>
      have hmalformed : ofToml t = .error .malformed := by rw [ofToml_of_parse hparse, hdecode]
      simp [hmalformed]
    | some s =>
      by_cases hlevel : s.headings.InRange
      · rw [ofToml_of_valid hparse hdecode hlevel.1 hlevel.2]
        refine ⟨by simp, fun e => by simp [hlevel], fun s' => ?_⟩
        simp only [Except.ok.injEq, Option.some.injEq, iff_self_and]
        rintro rfl
        exact hlevel
      · have hbad : s.headings.maxLevel = 0 ∨ 6 < s.headings.maxLevel := by
          rw [HeadingRules.InRange] at hlevel
          omega
        rw [ofToml_of_invalid hparse hdecode hbad]
        refine ⟨by simp, fun e => by simp [hlevel, eq_comm], fun s' => ?_⟩
        simp only [reduceCtorEq, Option.some.injEq, false_iff, not_and]
        rintro rfl
        exact hlevel
  · intro t t' doc doc' hparse hparse' hdoc hdoc' hagree
    rw [ofToml_of_parse hparse, ofToml_of_parse hparse', decode?_of_alike hdoc hdoc' hagree]

/-- Two files that set the deepest level to 3, one of them in a group with a further key. -/
theorem ofToml_settled_further_key :
    let t := "lexer.max_header_level = 3".toList
    let t' := "[lexer]\nq = 1.5\nmax_header_level = 0x3".toList
    let level : Text × Value := ("max_header_level".toList, .integer 3)
    let doc : Table := [("lexer".toList, .table [level])]
    let doc' : Table := [("lexer".toList, .table [("q".toList, .float "1.5".toList), level])]
    (parse? t = some doc ∧ parse? t' = some doc' ∧ doc.GroupsAreTables ∧ doc'.GroupsAreTables ∧
      ∀ setting : Setting, Option.Rel Value.Alike (setting.entry? doc) (setting.entry? doc')) ∧
    ofToml t = .ok { headings := { maxLevel := 3 } } ∧ ofToml t = ofToml t' := by
  intro t t' level doc doc'
  obtain ⟨houtcome, hsame⟩ := ofToml_settled
  have hparse : parse? t = some doc := by
    simp only [t, doc, level, String.reduceToList]
    rfl
  have hparse' : parse? t' = some doc' := by
    simp only [t', doc', level, String.reduceToList]
    rfl
  have hgroups : ∀ entries, Table.GroupsAreTables [("lexer".toList, .table entries)] := by
    intro entries setting v hv
    cases setting with
    | maxLevel => exact ⟨entries, (Option.some.inj hv).symm⟩
    | markdown => exact ⟨entries, (Option.some.inj hv).symm⟩
    | _ => exact absurd (show none = some v from hv) (by simp)
  have hagree : ∀ setting : Setting,
      Option.Rel Value.Alike (setting.entry? doc) (setting.entry? doc') := by
    intro setting
    cases setting with
    | maxLevel => exact .some (Value.Alike.refl _)
    | _ => exact .none
  have hgiven : GivenBy doc { headings := { maxLevel := 3 } } := by
    intro setting
    cases setting with
    | maxLevel => exact ⟨rfl, by decide⟩
    | _ => rfl
  refine ⟨⟨hparse, hparse', hgroups _, hgroups _, hagree⟩, ?_, ?_⟩
  · exact ((houtcome t doc hparse (hgroups _)).2.2 _).2 ⟨hgiven, by decide, by decide⟩
  · exact hsame t t' doc doc' hparse hparse' (hgroups _) (hgroups _) hagree

/-- A format that is given neither by its name nor by a table with its name for a key and an empty
    table for the value: the value is an empty array, and the format is read all the same. -/
theorem ofToml_format_empty_array :
    let t := "[output]\nformat = \x7b text = [] \x7d\n".toList
    let v : Value := .table [("text".toList, .array [])]
    let doc : Table := [("output".toList, .table [("format".toList, v)])]
    parse? t = some doc ∧ doc.GroupsAreTables ∧ Setting.format.entry? doc = some v ∧
    (∀ f : OutputFormat, v ≠ .string f.name ∧ v ≠ .table [(f.name, .table [])]) ∧
    ofToml t = .ok {} := by
  intro t v doc
  have hparse : parse? t = some doc := by
    simp only [t, doc, v, String.reduceToList]
    rfl
  have hgroups : doc.GroupsAreTables := by
    intro setting w hw
    cases setting with
    | maxLevel => exact absurd (show none = some w from hw) (by simp)
    | markdown => exact absurd (show none = some w from hw) (by simp)
    | _ => exact ⟨_, (Option.some.inj hw).symm⟩
  have hgiven : GivenBy doc {} := by
    intro setting
    cases setting with
    | format => exact Or.inr (Or.inr rfl)
    | _ => rfl
  have hdecode := (decode?_eq_some_iff_givenBy hgroups).2 hgiven
  refine ⟨hparse, hgroups, rfl, fun f => ?_, ?_⟩
  · simp [v]
  · exact ofToml_of_valid hparse hdecode (by decide) (by decide)

end Settings

end DocOutline
