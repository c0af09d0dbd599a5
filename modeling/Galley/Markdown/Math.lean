import Galley.Markdown.Line
import Galley.Text.Punctuation

/-!
# Formulas

A formula stands between single or double dollar signs. Both ends lie in the same braces, so that
a dollar sign within braces of a formula does not end it. Braces are counted from the first dollar
sign of a block on, and each pair of braces is told apart by a number.
-/

namespace Galley.Markdown

/-- The braces around a place in a block. -/
structure Braces where
  /-- The numbers of the open braces, the innermost first; the last is the block itself. -/
  opened : List Nat := []
  next : Nat := 0
deriving DecidableEq, Repr

namespace Braces

/-- The deepest nesting that is told apart; deeper braces are only counted. -/
def maxNesting : Nat := 25

/-- The number of the block itself. -/
def block : Nat := 255

/-- Numbers are bytes. -/
def byte (n : Nat) : Nat := n % 256

/-- The braces at a dollar sign, and their number. -/
def atDollar (b : Braces) : Braces × Nat :=
  if maxNesting < b.opened.length then (b, byte b.next)
  else
    match b.opened with
    | [] => ({ b with opened := [block] }, block)
    | innermost :: _ => (b, innermost)

/-- The braces behind an opening brace. -/
def enter (b : Braces) : Braces :=
  if b.opened.length = maxNesting then ⟨byte b.next :: b.opened, maxNesting⟩
  else if maxNesting < b.opened.length then { b with next := b.next + 1 }
  else if b.opened.isEmpty then b
  else ⟨byte b.next :: b.opened, b.next + 1⟩

/-- The braces behind a closing brace; one that closes nothing gives the block a new number. -/
def leave (b : Braces) : Braces :=
  match b.opened with
  | [_] => ⟨[byte b.next], b.next + 1⟩
  | opened =>
    if maxNesting < opened.length && maxNesting < b.next then { b with next := b.next - 1 }
    else { b with opened := opened.tail }

/-- The braces behind a text, in which a backslash makes punctuation plain. -/
def past (b : Braces) : Text → Braces
  | [] => b
  | ['\\'] => b
  | '\\' :: c :: s => if Text.isAsciiPunctuation c then b.past s else b.past (c :: s)
  | '$' :: s => b.atDollar.1.past s
  | '\x7b' :: s => b.enter.past s
  | '\x7d' :: s => b.leave.past s
  | _ :: s => b.past s

end Braces

namespace Math

/-- The source of a formula up to the dollar sign that ends it. It is the next one within the same
braces: for a displayed formula two of them, else one with no blank before it. -/
def body? (display : Bool) (number : Nat) (b : Braces) (afterBlank : Bool) : Text → Option Text
  | [] => none
  | '\\' :: c :: s =>
    if Text.isAsciiPunctuation c then
      (body? display number b false s).map ('\\' :: c :: ·)
    else (body? display number b false (c :: s)).map ('\\' :: ·)
  | '$' :: s =>
    let (b, here) := b.atDollar
    if here = number then
      if display then if s.head? = some '$' then some [] else none
      else if afterBlank then none
      else some []
    else (body? display number b false s).map ('$' :: ·)
  | c :: s =>
    let b := if c = '\x7b' then b.enter else if c = '\x7d' then b.leave else b
    (body? display number b (isSpacing c) s).map (c :: ·)

/-- A formula behind its first dollar sign: whether it is displayed, its source, and how many
characters it has with all other dollar signs. -/
def formula? (b : Braces) (number : Nat) : Text → Option (Bool × Text × Nat)
  | [] => none
  | '$' :: s =>
    (body? true number b.atDollar.1 false s).map fun source => (true, source, source.length + 3)
  | c :: s =>
    if isSpacing c then none
    else
      (body? false number b false (c :: s)).map fun source => (false, source, source.length + 1)

end Math

end Galley.Markdown
