import Galley.Number.Binary64

/-!
# TOML values

A TOML document is a table: values under distinct keys. A table knows how it came to be, for that
decides whether later lines of the document may still add to it.
-/

namespace Galley.Toml

/-- How a table came to be. -/
inductive Origin
  /-- By a header of its own. -/
  | header
  /-- By the header of a table inside it. -/
  | implied
  /-- By a dotted key. -/
  | dotted
  /-- Between braces. -/
  | inline
deriving DecidableEq, Repr

inductive Value
  | boolean (b : Bool)
  | integer (n : Int)
  | float (x : Binary64)
  | infinity (negative : Bool)
  | nan
  /-- A date, a time, or both, as it is written. -/
  | dateTime (s : Text)
  | string (s : Text)
  | array (items : List Value)
  | table (origin : Origin) (entries : List (Text × Value))
  /-- The tables that headers in double brackets make, in order. -/
  | tables (items : List (List (Text × Value)))
deriving Repr

/-- The keys of a table with their values, in order. -/
abbrev Entries := List (Text × Value)

namespace Entries

def get? (entries : Entries) (key : Text) : Option Value := entries.lookup key

/-- Puts a value in the place of the one under a key. -/
def replace (key : Text) (value : Value) (entries : Entries) : Entries :=
  entries.map fun entry => if entry.1 = key then (key, value) else entry

/-- Adds a value under a new key. -/
def add? (key : Text) (value : Value) (entries : Entries) : Option Entries :=
  match entries.get? key with
  | none => some (entries ++ [(key, value)])
  | some _ => none

/-! ## Dotted keys -/

/-- Adds a value under a dotted key, given as its first part and the parts behind it. Tables on
the way are made, or were made by a dotted key or, but for the last one, implied by a header. -/
def define? (value : Value) : Text → List Text → Entries → Option Entries
  | key, [], entries => add? key value entries
  | key, next :: path, entries =>
    match entries.get? key with
    | none => (define? value next path []).map fun inner =>
        entries ++ [(key, .table .dotted inner)]
    | some (.table origin inner) =>
      if origin = .dotted || (origin = .implied && !path.isEmpty) then
        (define? value next path inner).map fun inner => replace key (.table origin inner) entries
      else none
    | some (.tables items) =>
      if path.isEmpty then none
      else do
        let inner ← define? value next path (← items.getLast?)
        some (replace key (.tables (items.dropLast ++ [inner])) entries)
    | some _ => none

/-! ## Headers -/

/-- Changes the table that a path of keys leads to. Missing tables are implied; of tables in
double brackets the last is meant; a table between braces is closed. -/
def within? (change : Entries → Option Entries) : List Text → Entries → Option Entries
  | [], entries => change entries
  | key :: path, entries =>
    match entries.get? key with
    | none => (within? change path []).map fun inner => entries ++ [(key, .table .implied inner)]
    | some (.table origin inner) =>
      if origin = .inline then none
      else (within? change path inner).map fun inner => replace key (.table origin inner) entries
    | some (.tables items) => do
      let inner ← within? change path (← items.getLast?)
      some (replace key (.tables (items.dropLast ++ [inner])) entries)
    | some _ => none

/-- Opens the table of a header, which is new or only implied so far. -/
def openTable? (key : Text) (entries : Entries) : Option Entries :=
  match entries.get? key with
  | none => some (entries ++ [(key, .table .header [])])
  | some (.table .implied inner) => some (replace key (.table .header inner) entries)
  | some _ => none

/-- Opens one more table of a header in double brackets. -/
def openItem? (key : Text) (entries : Entries) : Option Entries :=
  match entries.get? key with
  | none => some (entries ++ [(key, .tables [[]])])
  | some (.tables items) => some (replace key (.tables (items ++ [[]])) entries)
  | some _ => none

end Entries

end Galley.Toml
