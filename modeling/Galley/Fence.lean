import Galley.Text.Blank

/-!
# Code fences

A line of three or more backticks or tildes opens a fence, and a line of at least as many of the
same character, with nothing but blanks after it, closes it. Indentation does not matter. The
state between two lines is the open fence, if any.
-/

namespace Galley

/-- An open fence: its character and how often the opening line repeats it. -/
structure Fence where
  char : Char
  length : Nat
deriving DecidableEq, Repr

namespace Fence

def runLength (c : Char) (s : Text) : Nat := (s.takeWhile (· == c)).length

def ofLine? (line : Text) : Option Fence :=
  match Text.trimStart line with
  | [] => none
  | c :: s =>
    if c = '`' ∨ c = '~' then
      let n := runLength c (c :: s)
      if 3 ≤ n then some ⟨c, n⟩ else none
    else none

def closedBy (fence : Fence) (line : Text) : Bool :=
  let s := Text.trimStart line
  let n := runLength fence.char s
  0 < n && fence.length ≤ n && (s.drop n).all Text.isBlank

/-- The open fence after a line. -/
def afterLine (fence? : Option Fence) (line : Text) : Option Fence :=
  match fence? with
  | none => ofLine? line
  | some fence => if fence.closedBy line then none else some fence

end Fence

end Galley
