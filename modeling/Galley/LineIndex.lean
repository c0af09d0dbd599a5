import Galley.Text

/-!
# Line index

The byte offsets at which the lines of a text start, and the number of the line that holds a
given offset. Lines count from one; an offset past the end belongs to the last line.
-/

namespace Galley

/-- The start offsets of the lines of a text, in increasing order. -/
structure LineIndex where
  starts : List Nat
deriving DecidableEq, Repr

namespace LineIndex

/-- The offsets just past each newline of a text that begins at `offset`. -/
def startsFrom (offset : Nat) : Text → List Nat
  | [] => []
  | c :: s =>
    let next := offset + c.utf8Size
    if c = '\n' then next :: startsFrom next s else startsFrom next s

/-- The index of a text. Even the empty text has one line. -/
def ofText (s : Text) : LineIndex := ⟨0 :: startsFrom 0 s⟩

def size (index : LineIndex) : Nat := index.starts.length

def isEmpty (index : LineIndex) : Bool := index.starts.isEmpty

/-- The number of the line that holds the byte at `offset`: so many lines start no later. -/
def lineOf (index : LineIndex) (offset : Nat) : Nat :=
  (index.starts.takeWhile (· ≤ offset)).length

end LineIndex

end Galley
