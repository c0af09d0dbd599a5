import Galley.Text

/-!
# A place in a YAML text

What is left of a text, with the column and the line of its first character and the number of
characters before it. Columns decide how blocks nest; the other two decide how far a key may lie
before its colon.
-/

namespace Galley.Yaml

/-- A place in a text. -/
structure Cursor where
  rest : Text
  index : Nat := 0
  line : Nat := 0
  column : Nat := 0
deriving DecidableEq, Repr

def isBreak (c : Char) : Bool :=
  c = '\n' || c = '\r' || c = '\u0085' || c = '\u2028' || c = '\u2029'

def isSpaceOrTab (c : Char) : Bool := c = ' ' || c = '\t'

/-- Whether a token that needs a separation may end here: at a blank or at the end. -/
def endsToken : Option Char → Bool
  | none => true
  | some c => isSpaceOrTab c || isBreak c

def isNameChar (c : Char) : Bool := c.isAlphanum || c = '_' || c = '-'

/-- Whether `c` may stand in a text at all. -/
def isAllowed (c : Char) : Bool :=
  let n := c.toNat
  n = 0x9 || n = 0xa || n = 0xd || (0x20 ≤ n && n ≤ 0x7e) || n = 0x85
    || (0xa0 ≤ n && n ≤ 0xfffd) || 0x10000 ≤ n

namespace Cursor

def peek (c : Cursor) : Option Char := c.rest.head?

/-- The character `n` places further on. -/
def peekAt (c : Cursor) (n : Nat) : Option Char := c.rest[n]?

/-- Past one character that is not a line break. -/
def next (c : Cursor) : Cursor :=
  match c.rest with
  | [] => c
  | _ :: rest => { c with rest, index := c.index + 1, column := c.column + 1 }

/-- Past `n` characters that are not line breaks. -/
def skip (c : Cursor) (n : Nat) : Cursor :=
  { c with rest := c.rest.drop n, index := c.index + n, column := c.column + n }

/-- Past one line break. -/
def nextLine (c : Cursor) : Cursor :=
  match c.rest with
  | '\r' :: '\n' :: rest => { rest, index := c.index + 2, line := c.line + 1, column := 0 }
  | _ :: rest => { rest, index := c.index + 1, line := c.line + 1, column := 0 }
  | [] => c

/-- The line break at the cursor as it counts in a scalar. -/
def lineBreak (c : Cursor) : Text :=
  match c.rest with
  | [] => []
  | b :: _ => if b = '\u2028' || b = '\u2029' then [b] else if isBreak b then "\n" else []

def atBreak (c : Cursor) : Bool := c.peek.any isBreak

def atBlank (c : Cursor) : Bool := c.peek.any isSpaceOrTab

def atBreakOrEnd (c : Cursor) : Bool := c.rest.isEmpty || c.atBreak

/-- Past the characters that satisfy `p`, none of which is a line break. -/
def skipWhile (p : Char → Bool) (c : Cursor) : Cursor :=
  c.skip (c.rest.takeWhile p).length

def skipToBreak (c : Cursor) : Cursor := c.skipWhile (!isBreak ·)

/-- Whether a line of three dashes or three dots, which separates documents, begins here. -/
def atDocumentMark (c : Cursor) : Bool :=
  c.column = 0 && (Text.hasPrefix "---" c.rest || Text.hasPrefix "..." c.rest)
    && endsToken (c.peekAt 3)

end Cursor

end Galley.Yaml
