import DocOutline.Toml.Statement

set_option autoImplicit false

/-! # TOML documents

The statements of a document fill its root table. Keys go into the table whose header came last, or
into the root before the first header. A line break is a line feed, which a carriage return may
precede, and a byte order mark at the start is skipped. -/

namespace DocOutline.Toml

open Text

/-- The text with every line break written as a line feed. Other carriage returns stay, and no
    statement admits them. -/
def unifyBreaks : Text → Text
  | [] => []
  | '\r' :: '\n' :: t => '\n' :: unifyBreaks t
  | c :: t => c :: unifyBreaks t

/-- The text without a byte order mark at its start. -/
def skipMark (t : Text) : Text :=
  match t with
  | [] => []
  | c :: rest => if c.toNat = 0xFEFF then rest else t

/-- The root table so far, and the path of the table that takes keys. -/
structure Progress where
  root : Entries := []
  current : List Text := []
  deriving Inhabited

/-- Carries out a statement, unless it defines something a second time. -/
def Progress.step (p : Progress) : Statement → Option Progress
  | .pair key v => do
    let last ← key.getLast?
    let root ← p.root.updateAt p.current (Entries.insert · key.dropLast last v)
    return { p with root }
  | .header path => do return ⟨← p.root.openTable path, path⟩
  | .elementHeader path => do return ⟨← p.root.openElement path, path⟩

/-- The root table of a TOML document; nothing if the text is none. -/
def parse? (t : Text) : Option Table := do
  let statements ← statements? (unifyBreaks (skipMark t))
  let progress ← statements.foldlM Progress.step {}
  return finishEntries progress.root

end DocOutline.Toml
