import Galley.Markdown.CharRef.Lower
import Galley.Markdown.CharRef.Upper
import Galley.Markdown.Line
import Galley.Number.Numeral
import Galley.Text.Punctuation

/-!
# Character references and escapes

A character can be written by its name or its number between an ampersand and a semicolon. A
backslash before ASCII punctuation makes that punctuation plain. Both are resolved in text, link
targets, titles and info strings.
-/

namespace Galley.Markdown

namespace CharRef

/-- The character with a code point; the null character is replaced, and some code points have no
character. -/
def ofCodePoint? (n : Nat) : Option Char :=
  if n = 0 then some '\ufffd' else if n.isValidChar then some (Char.ofNat n) else none

/-- A number in at most `limit` digits and a semicolon, and what follows. -/
def numeric? (base limit : Nat) (s : Text) : Option (Text × Text) :=
  let digits := (s.take limit).takeWhile fun c => (Numeral.digit? base c).isSome
  match Numeral.natural? base digits, s.drop digits.length with
  | some n, ';' :: rest => (ofCodePoint? n).map fun c => ([c], rest)
  | _, _ => none

/-- The text that a name stands for. -/
def named? (name : Text) : Option Text := do
  let initial ← name.head?
  let codes ← (lowerNames initial ++ upperNames initial).lookup (String.ofList name)
  some (codes.map Char.ofNat)

/-- The reference at the start of a text, resolved, and what follows it. -/
def atStart? : Text → Option (Text × Text)
  | '&' :: '#' :: c :: s =>
    if c = 'x' || c = 'X' then numeric? 16 6 s else numeric? 10 7 (c :: s)
  | '&' :: s =>
    let name := s.takeWhile Char.isAlphanum
    match s.drop name.length with
    | ';' :: rest => (named? name).map fun value => (value, rest)
    | _ => none
  | _ => none

end CharRef

/-- Resolves escapes and references after `skip` characters that belong to a reference. -/
def resolveFrom : Nat → Text → Text
  | _, [] => []
  | skip + 1, _ :: s => resolveFrom skip s
  | 0, ['\\'] => ['\\']
  | 0, '\\' :: c :: s =>
    if Text.isAsciiPunctuation c then c :: resolveFrom 0 s else '\\' :: resolveFrom 0 (c :: s)
  | 0, c :: s =>
    match CharRef.atStart? (c :: s) with
    | some (value, rest) => value ++ resolveFrom (s.length - rest.length) s
    | none => c :: resolveFrom 0 s

/-- The text with its escapes and character references resolved. -/
def resolve (s : Text) : Text := resolveFrom 0 s

def dropReturns (s : Text) : Text := s.filter (· ≠ '\r')

end Galley.Markdown
