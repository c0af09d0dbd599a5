import Galley.Render.Footnotes

/-!
# The notes as tables

What is known of the notes of a page, kept in tables: the number of each label, and by number whether
the note was referenced and what its definition says. A place of a table is one less than a number,
and storing at a place that a table does not have fails. `Footnotes.tables` gives the tables that the
list of the notes stands for.
-/

namespace Galley.Render

/-- What is learned of a note. -/
inductive NoteCall
  | refer (label : Text)
  | beginDefinition (label : Text)
  | endDefinition (body : Text)
deriving DecidableEq, Repr

/-- What is known of the notes, by label and by number. -/
structure NoteTables where
  numbers : List (Text × Nat) := []
  referenced : List Bool := []
  definitions : List (Option Text) := []
  /-- The label of the definition being read. -/
  current : Option Text := none
deriving DecidableEq, Repr

namespace NoteTables

def number? (tables : NoteTables) (label : Text) : Option Nat := tables.numbers.lookup label

/-- The number of a label; a new one gets the next number, and a place in each table. -/
def number (tables : NoteTables) (label : Text) : NoteTables × Nat :=
  match tables.number? label with
  | some n => (tables, n)
  | none =>
    let referenced := tables.referenced ++ [false]
    let definitions := tables.definitions ++ [none]
    let n := referenced.length
    ({ tables with referenced, definitions, numbers := tables.numbers ++ [(label, n)] }, n)

/-- Stores a value in the place of the number `n`, which fails if there is no such place. -/
def store? {α : Type} (n : Nat) (a : α) (table : List α) : Option (List α) :=
  match n with
  | 0 => none
  | i + 1 => if i < table.length then some (table.set i a) else none

/-- Records a reference, and gives the number of the note. -/
def refer (tables : NoteTables) (label : Text) : Option (NoteTables × Nat) := do
  let (tables, n) := tables.number label
  let referenced ← store? n true tables.referenced
  return ({ tables with referenced }, n)

def beginDefinition (tables : NoteTables) (label : Text) : NoteTables :=
  { (tables.number label).1 with current := some label }

def define (tables : NoteTables) (label body : Text) : Option NoteTables := do
  let (tables, n) := tables.number label
  let definitions ← store? n (some body) tables.definitions
  return { tables with definitions }

/-- Ends the definition being read; its text is `body`. -/
def endDefinition (tables : NoteTables) (body : Text) : Option NoteTables :=
  match tables.current with
  | none => some tables
  | some label => { tables with current := none }.define label body

def call (tables : NoteTables) : NoteCall → Option NoteTables
  | .refer label => (tables.refer label).map (·.1)
  | .beginDefinition label => some (tables.beginDefinition label)
  | .endDefinition body => tables.endDefinition body

/-- The tables of a page after the calls, if none of them fails. -/
def run (calls : List NoteCall) : Option NoteTables := calls.foldlM call {}

end NoteTables

namespace Footnotes

def call (fs : Footnotes) : NoteCall → Footnotes
  | .refer label => fs.refer label
  | .beginDefinition label => fs.beginDefinition label
  | .endDefinition body => fs.endDefinition body

/-- The notes of a page after the calls. -/
def run (calls : List NoteCall) : Footnotes := calls.foldl call {}

def tables (fs : Footnotes) : NoteTables where
  numbers := (fs.notes.map (·.label)).zipIdx 1
  referenced := fs.notes.map (·.referenced)
  definitions := fs.notes.map (·.body)
  current := fs.current

end Footnotes

end Galley.Render
