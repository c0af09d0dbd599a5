import Galley.Text

/-!
# Attributes

The attributes of a document: lists of values under names, in the order in which the names first
appeared. A later value list for a name replaces the earlier one in its place.
-/

namespace Galley.Document

/-- The attributes in order, each with its values. -/
structure Attributes where
  entries : List (Text × List Text) := []
deriving DecidableEq, Repr

namespace Attributes

def isEmpty (attrs : Attributes) : Bool := attrs.entries.isEmpty

def size (attrs : Attributes) : Nat := attrs.entries.length

def names (attrs : Attributes) : List Text := attrs.entries.map (·.1)

def get? (attrs : Attributes) (name : Text) : Option (List Text) := attrs.entries.lookup name

/-- Sets the values of a name among the entries. -/
def set (name : Text) (values : List Text) :
    List (Text × List Text) → List (Text × List Text)
  | [] => [(name, values)]
  | (n, vs) :: entries =>
    if n = name then (n, values) :: entries else (n, vs) :: set name values entries

/-- Sets the values of an attribute; one that is new comes last. -/
def insert (attrs : Attributes) (name : Text) (values : List Text) : Attributes :=
  ⟨set name values attrs.entries⟩

/-- The attributes after a list of insertions. -/
def ofList (pairs : List (Text × List Text)) : Attributes :=
  pairs.foldl (fun attrs p => attrs.insert p.1 p.2) {}

end Attributes

end Galley.Document
