import Galley.Text

/-!
# Lines of markup

Markup is read line by line. A line ends with a newline, a carriage return or both, and with the
end of the text. Only the lines of code, raw HTML and metadata end with a newline alone.
-/

namespace Galley.Markdown

/-- Whether `c` is a blank within a line. -/
def isGap (c : Char) : Bool := c = ' ' || c = '\t' || c = '\x0b' || c = '\x0c'

def isEnding (c : Char) : Bool := c = '\n' || c = '\r'

/-- Whether `c` is a blank or belongs to a line ending. -/
def isSpacing (c : Char) : Bool := isGap c || isEnding c

/-- What follows the line ending at the start of the text. The end of the text ends a line. -/
def afterEnding? : Text → Option Text
  | [] => some []
  | '\n' :: s => some s
  | '\r' :: '\n' :: s => some s
  | '\r' :: s => some s
  | _ => none

def afterBlank? (s : Text) : Option Text := afterEnding? (s.dropWhile isGap)

def isBlankLine (s : Text) : Bool := (afterBlank? s).isSome

def restOfLine (s : Text) : Text := s.takeWhile (!isEnding ·)

/-- The line through its newline, and what follows; a lone carriage return does not end it. -/
def cutLine : Text → Text × Text
  | [] => ([], [])
  | c :: s =>
    if c = '\n' then ([c], s)
    else
      let (line, rest) := cutLine s
      (c :: line, rest)

@[simp] theorem cutLine_append (s : Text) : (cutLine s).1 ++ (cutLine s).2 = s := by
  induction s with
  | nil => rfl
  | cons c s ih => by_cases h : c = '\n' <;> simp [cutLine, h, ih]

def runLength (c : Char) (s : Text) : Nat := (s.takeWhile (· == c)).length

def countEndings : Text → Nat
  | [] => 0
  | '\r' :: '\n' :: s => countEndings s + 1
  | c :: s => countEndings s + if isEnding c then 1 else 0

/-- A line of code: a carriage return just before the last character is left out. -/
def codeLine (line : Text) : Text :=
  match line.reverse with
  | last :: '\r' :: line => (last :: line).reverse
  | _ => line

end Galley.Markdown
