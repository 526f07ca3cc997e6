import DocOutline.Toml.Value

set_option autoImplicit false

/-! # Tables under construction

The tables of a TOML document are filled statement by statement, and how a table came about decides
what may still be added to it:

* a table with a header of its own, or an array of them, is opened once and takes keys until the
  next header;
* a table that only the longer header of an inner table implies may still get its own header;
* a table that the dots of a key imply may be extended by further dotted keys, and by headers of
  inner tables, but gets no header of its own;
* a value, inline tables included, is complete. -/

namespace DocOutline.Toml

/-- How a table came about. -/
inductive Origin where
  | header
  | impliedByHeader
  | impliedByDots
  deriving DecidableEq, Repr, Inhabited

/-- What a key of an unfinished table stands for. -/
inductive Draft where
  | value (v : Value)
  | table (origin : Origin) (entries : List (Text × Draft))
  /-- An array of tables with headers, of which the last one is open. -/
  | tables (elements : List (List (Text × Draft)))
  deriving Repr, Inhabited

/-- The keys of an unfinished table. -/
abbrev Entries := List (Text × Draft)

/-! ## Finished tables -/

mutual
/-- The value that a draft has become. -/
def Draft.finish : Draft → Value
  | .value v => v
  | .table _ entries => .table (finishEntries entries)
  | .tables elements => .array (finishElements elements)

def finishEntries : List (Text × Draft) → List (Text × Value)
  | [] => []
  | (key, draft) :: rest => (key, draft.finish) :: finishEntries rest

def finishElements : List (List (Text × Draft)) → List Value
  | [] => []
  | entries :: rest => .table (finishEntries entries) :: finishElements rest
end

namespace Entries

/-- Sets a key: in place if it is there, else at the end. -/
def set (entries : Entries) (key : Text) (draft : Draft) : Entries :=
  if (entries.lookup key).isSome then
    entries.map fun entry => if entry.1 = key then (key, draft) else entry
  else entries ++ [(key, draft)]

/-- Changes the last table of an array. -/
def updateLast (elements : List Entries) (f : Entries → Option Entries) :
    Option (List Entries) := do
  let last ← elements.getLast?
  return elements.dropLast ++ [← f last]

/-! ## Keys with values -/

/-- Adds a value under a key, below the tables that the dots in front of the key name. The innermost
    of these tables has to be one that dots imply. -/
def insert (entries : Entries) (dotted : List Text) (key : Text) (v : Value) : Option Entries :=
  match dotted with
  | [] => if (entries.lookup key).isSome then none else some (entries.set key (.value v))
  | outer :: inner =>
    match entries.lookup outer with
    | none => do
      return entries.set outer (.table .impliedByDots (← insert [] inner key v))
    | some (.value _) => none
    | some (.table origin inside) =>
      if origin = .header ∨ (inner.isEmpty ∧ origin ≠ .impliedByDots) then none
      else do return entries.set outer (.table origin (← insert inside inner key v))
    | some (.tables elements) =>
      if inner.isEmpty then none
      else do
        return entries.set outer (.tables (← updateLast elements (insert · inner key v)))

/-! ## Headers -/

/-- Opens the table that a header names. -/
def openTable (entries : Entries) (path : List Text) : Option Entries :=
  match path with
  | [] => none
  | key :: inner =>
    match inner, entries.lookup key with
    | [], none => some (entries.set key (.table .header []))
    | [], some (.table .impliedByHeader inside) => some (entries.set key (.table .header inside))
    | [], some _ => none
    | _ :: _, none => do
      return entries.set key (.table .impliedByHeader (← openTable [] inner))
    | _ :: _, some (.table origin inside) => do
      return entries.set key (.table origin (← openTable inside inner))
    | _ :: _, some (.tables elements) => do
      return entries.set key (.tables (← updateLast elements (openTable · inner)))
    | _ :: _, some (.value _) => none

/-- Opens one more table of the array that a header names. -/
def openElement (entries : Entries) (path : List Text) : Option Entries :=
  match path with
  | [] => none
  | key :: inner =>
    match inner, entries.lookup key with
    | [], none => some (entries.set key (.tables [[]]))
    | [], some (.tables elements) => some (entries.set key (.tables (elements ++ [[]])))
    | [], some _ => none
    | _ :: _, none => do
      return entries.set key (.table .impliedByHeader (← openElement [] inner))
    | _ :: _, some (.table origin inside) => do
      return entries.set key (.table origin (← openElement inside inner))
    | _ :: _, some (.tables elements) => do
      return entries.set key (.tables (← updateLast elements (openElement · inner)))
    | _ :: _, some (.value _) => none

/-- Changes the open table that a path leads to. -/
def updateAt (entries : Entries) (path : List Text) (f : Entries → Option Entries) :
    Option Entries :=
  match path with
  | [] => f entries
  | key :: inner =>
    match entries.lookup key with
    | some (.table origin inside) => do
      return entries.set key (.table origin (← updateAt inside inner f))
    | some (.tables elements) => do
      return entries.set key (.tables (← updateLast elements (updateAt · inner f)))
    | _ => none

end Entries

end DocOutline.Toml
