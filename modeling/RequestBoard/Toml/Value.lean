import RequestBoard.Toml.Moment

/-!
# TOML values and tables

A table remembers how it came to be, because that decides who may still add to it.  `Entries.assignIn`,
`Entries.open?` and `Entries.openElement?` are the three ways in which a document adds to its root table;
each refuses to define anything a second time.
-/

namespace RequestBoard.Toml

/-- How a table came to be. -/
inductive Origin where
  /-- Written out between braces; nothing is added to it later. -/
  | inline
  /-- Named by a header of its own, or the root. -/
  | header
  /-- Passed through on the way to a header. -/
  | passed
  /-- Passed through by a dotted key. -/
  | dotted
  deriving DecidableEq, Repr

/-- A TOML value. -/
inductive Value where
  | string (text : String)
  | integer (value : Int)
  | float (value : Float)
  | boolean (value : Bool)
  | moment (value : Moment)
  | array (items : List Value)
  | table (origin : Origin) (entries : List (String × Value))
  /-- An array whose elements are tables with headers of their own. -/
  | tables (elements : List (List (String × Value)))

instance : Inhabited Value := ⟨.boolean false⟩

/-- The entries of a table, in the order in which they were defined. -/
abbrev Entries := List (String × Value)

namespace Entries

/-- The value under a key. -/
def find? (entries : Entries) (key : String) : Option Value := entries.lookup key

/-- The entries with the value under a key replaced. -/
def replace (entries : Entries) (key : String) (value : Value) : Entries :=
  entries.map fun entry => if entry.1 = key then (key, value) else entry

/-- The entries with one more at the end. -/
def add (entries : Entries) (key : String) (value : Value) : Entries := entries ++ [(key, value)]

/-- Changes the table at the end of a path.  Tables that are missing on the way are made, with the
given origin.  An array of tables stands for its last element.  A dotted key may not pass through a
table that has a header of its own. -/
def within (made : Origin) (change : Origin → Entries → Option Entries) :
    (path : List String) → Origin → Entries → Option Entries
  | [], origin, entries => change origin entries
  | key :: path, _, entries => match entries.find? key with
    | none => (within made change path made []).map fun sub => entries.add key (.table made sub)
    | some (.table .inline _) => none
    | some (.table origin sub) =>
      if made = .dotted ∧ origin = .header then none
      else (within made change path origin sub).map fun sub =>
        entries.replace key (.table origin sub)
    | some (.tables elements) => match elements.getLast? with
      | some last => (within made change path .header last).map fun last =>
          entries.replace key (.tables (elements.dropLast ++ [last]))
      | none => none
    | some _ => none

/-- Defines a key that may have dotted segments before it.  A dotted key adds only to tables that
dotted keys made. -/
def assign (entries : Entries) (path : List String) (key : String) (value : Value) :
    Option Entries :=
  within .dotted (fun origin entries =>
    if path ≠ [] ∧ origin ≠ .dotted then none
    else if (entries.find? key).isSome then none
    else some (entries.add key value)) path .header entries

/-- Defines the table of a header. -/
def open? (entries : Entries) (path : List String) (key : String) : Option Entries :=
  within .passed (fun _ entries => match entries.find? key with
    | none => some (entries.add key (.table .header []))
    | some (.table .passed sub) => some (entries.replace key (.table .header sub))
    | some _ => none) path .header entries

/-- Defines one more element of an array of tables. -/
def openElement? (entries : Entries) (path : List String) (key : String) : Option Entries :=
  within .passed (fun _ entries => match entries.find? key with
    | none => some (entries.add key (.tables [[]]))
    | some (.tables elements) => some (entries.replace key (.tables (elements ++ [[]])))
    | some _ => none) path .header entries

/-- Defines a key in the table that a header has opened. -/
def assignIn (entries : Entries) (header path : List String) (key : String) (value : Value) :
    Option Entries :=
  within .passed (fun _ entries => entries.assign path key value) header .header entries

end Entries

end RequestBoard.Toml
