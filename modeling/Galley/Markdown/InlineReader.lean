import Galley.Markdown.Block
import Galley.Markdown.Emphasis
import Galley.Markdown.Extensions
import Galley.Markdown.Link
import Galley.Markdown.Math
import Galley.Markdown.RawHtml
import Galley.Text.CaseFold

/-!
# Reading inline elements

The text of a leaf is read from left to right. Code, formulas, raw HTML and links to themselves
are read whole where they begin. Brackets are kept until their closing bracket shows whether they
are a link, an image, a reference to a footnote, or text.
-/

namespace Galley.Markdown

/-- What the references of a document can lead to: the targets and the footnotes, under their
folded labels. -/
structure Definitions where
  targets : List (Text × Target) := []
  notes : List Text := []
deriving Repr

namespace Definitions

def target? (defs : Definitions) (label : Text) : Option Target :=
  defs.targets.lookup (Text.fold label)

/-- Whether a footnote with the label is defined. -/
def hasNote (defs : Definitions) (label : Text) : Bool := defs.notes.contains (Text.fold label)

end Definitions

/-! ## Parts that are read whole -/

/-- The text up to the next run of exactly `n` backticks. -/
def codeBody? (n : Nat) : Nat → Text → Option Text
  | 0, _ => none
  | fuel + 1, s =>
    let plain := s.takeWhile (· ≠ '\x60')
    let rest := s.drop plain.length
    let ticks := runLength '\x60' rest
    if ticks = 0 then none
    else if ticks = n then some plain
    else
      (codeBody? n fuel (rest.drop ticks)).map fun body =>
        plain ++ List.replicate ticks '\x60' ++ body

/-- The code between backticks: line endings are spaces, and of other code one space at each end
is left out. -/
def codeText (body : Text) : Text :=
  let s := body.map fun c => if isEnding c then ' ' else c
  match s, s.getLast? with
  | ' ' :: inner, some ' ' => if s.all (· = ' ') then s else inner.dropLast
  | _, _ => s

/-- Blanks with at most one line ending among them are left out. -/
def skipSeparator (s : Text) : Text :=
  let s := s.dropWhile isGap
  ((afterEnding? s).getD s).dropWhile isGap

/-- The target of an inline link behind its closing bracket, and what follows the link. -/
def inlineTarget? (s : Text) : Option (Target × Text) := do
  let s ← Text.dropPrefix? "(" s
  let (url, s) ← Link.url? (skipSeparator s)
  let s := skipSeparator s
  match Link.title? some s with
  | some (title, s) =>
    let s ← Text.dropPrefix? ")" (skipSeparator s)
    some ({ url, title := resolve title }, s)
  | none =>
    let s ← Text.dropPrefix? ")" s
    some ({ url }, s)

/-! ## Labels -/

/-- A label in brackets. -/
inductive BracketLabel
  | target (label : Text)
  | note (label : Text)
deriving DecidableEq, Repr

/-- The label behind an opening bracket, and what follows its closing bracket. A label that begins
with a caret names a footnote; such a label lies within a line. -/
def BracketLabel.read? (footnotes : Bool) (s : Text) : Option (BracketLabel × Text) :=
  let note :=
    match s with
    | '^' :: s =>
      if footnotes && s.head? ≠ some ']' then Link.label? (fun _ => none) s else none
    | _ => none
  match note with
  | some (label, rest) => some (.note label, rest)
  | none => (Link.label? some s).map fun (label, rest) => (.target label, rest)

/-- What follows the closing bracket of a reference. -/
inductive Reference
  /-- The label of the target in brackets. -/
  | full (label rest : Text)
  /-- Empty brackets. -/
  | collapsed (rest : Text)
  /-- Neither. -/
  | shortcut (rest : Text)
deriving DecidableEq, Repr

/-- Reads what follows a closing bracket. -/
def Reference.read (footnotes : Bool) (s : Text) : Reference :=
  match s with
  | '[' :: ']' :: rest => .collapsed rest
  | '[' :: inner =>
    match BracketLabel.read? footnotes inner with
    | some (.target label, rest) => .full label rest
    | _ => .shortcut s
  | _ => .shortcut s

/-! ## Delimiters -/

/-- Whether a run of delimiters between two characters can open an element. A star and a double
tilde can do so within a word. -/
def opensElement (delimiter : Char) (length : Nat) (prev next : Option Char) : Bool :=
  match prev, next with
  | _, none => false
  | none, some n => !Text.isBlank n
  | some p, some n =>
    !Text.isBlank n
      && (delimiter = '*' && !Text.isPunctuation n
        || delimiter = '~' && 1 < length
        || delimiter = '~' && p = '~' && !Text.isPunctuation n
        || Text.isBlank p || Text.isPunctuation p)

/-- Whether a run of delimiters between two characters can close an element. -/
def closesElement (delimiter : Char) (length : Nat) (prev next : Option Char) : Bool :=
  match prev, next with
  | none, _ => false
  | some p, none => !Text.isBlank p
  | some p, some n =>
    !Text.isBlank p
      && ((delimiter = '*' || delimiter = '~' && 1 < length) && !Text.isPunctuation p
        || delimiter = '~' && p = '~'
        || Text.isBlank n || Text.isPunctuation n)

/-- Whether a run of the given length is a run of delimiters. -/
def isDelimiterRun (extensions : Extensions) (delimiter : Char) (length : Nat) : Bool :=
  if delimiter = '~' then
    length = 1 && extensions.subscript || length = 2 && extensions.strikethrough
  else if delimiter = '^' then length = 1 && extensions.superscript
  else true

/-! ## The reader -/

structure Bracket where
  /-- Whether an exclamation mark stands before the bracket. -/
  image : Bool
  /-- Whether the bracket can still begin a link; no link holds another. -/
  active : Bool := true
  /-- What follows the bracket. -/
  source : Text
  /-- The elements before the bracket, the latest first. -/
  before : List Inline
deriving Repr

def Bracket.text (b : Bracket) : Inline := .text (if b.image then "![" else "[" : Text)

/-- The reading of a text on its way. -/
structure InlineReader where
  rest : Text
  prev : Option Char := none
  /-- What was left out behind the line endings to come. -/
  hidden : List Text := []
  braces : Braces := {}
  /-- The elements since the innermost open bracket, the latest first. -/
  elements : List Inline := []
  /-- The open brackets, the innermost first. -/
  brackets : List Bracket := []
  /-- How much follows a closing bracket that belongs to a label and can be no reference. -/
  spent : Option Nat := none
deriving Repr

namespace InlineReader

/-- The reader `n` characters further. -/
def advance (r : InlineReader) (n : Nat) : InlineReader :=
  let read := r.rest.take n
  let ends := countEndings read
  let prev :=
    match read.getLast? with
    | none => r.prev
    | some c =>
      if isEnding c then ((r.hidden[ends - 1]?).bind List.getLast?).getD c else c
  { r with
    rest := r.rest.drop n
    prev
    hidden := r.hidden.drop ends
    braces := r.braces.past read }

def add (r : InlineReader) (element : Inline) : InlineReader :=
  { r with elements := element :: r.elements }

def takeText (r : InlineReader) (n : Nat) : InlineReader :=
  (r.advance n).add (.text (r.rest.take n))

/-- Reads up to `rest` as an element. -/
def takeTo (r : InlineReader) (rest : Text) (element : Inline) : InlineReader :=
  (r.advance (r.rest.length - rest.length)).add element

/-- Reads a line ending behind `n` characters, and the indentation of the next line. -/
def takeBreak (r : InlineReader) (n : Nat) (element : Inline) : InlineReader :=
  let next := (afterEnding? (r.rest.drop n)).getD []
  r.takeTo (next.dropWhile fun c => c = ' ' || c = '\t') element

/-- Reads blanks; those at the end of a line are left out, and two of them break the line. -/
def takeGap (r : InlineReader) : InlineReader :=
  let n := (r.rest.takeWhile isGap).length
  match r.rest.drop n with
  | [] => r.advance n
  | c :: _ =>
    if isEnding c then r.takeBreak n (if 2 ≤ n then .hardBreak else .softBreak)
    else r.takeText n

/-- Reads a backslash, which makes punctuation plain and breaks a line at its end. -/
def takeBackslash (r : InlineReader) : InlineReader :=
  match r.rest.drop 1 with
  | [] => r.takeText 1
  | c :: _ =>
    if isEnding c then r.takeBreak 1 .hardBreak
    else if Text.isAsciiPunctuation c then (r.advance 2).add (.text [c])
    else r.takeText 1

/-- Reads code, or a run of backticks as text. -/
def takeCode (r : InlineReader) : InlineReader :=
  let n := runLength '\x60' r.rest
  let behind := r.rest.drop n
  match codeBody? n (behind.length + 1) behind with
  | some body => (r.advance (n + body.length + n)).add (.code (codeText body))
  | none => r.takeText n

/-- Reads a formula, or a dollar sign as text. -/
def takeMath (r : InlineReader) : InlineReader :=
  let (braces, number) := r.braces.atDollar
  match Math.formula? braces number (r.rest.drop 1) with
  | some (display, source, n) => (r.advance (n + 1)).add (.math display source)
  | none => r.takeText 1

/-- The text with what was left out behind its line endings. -/
def reveal (hidden : List Text) : Text → Text
  | [] => []
  | '\r' :: '\n' :: s => '\r' :: '\n' :: (hidden.headD [] ++ reveal hidden.tail s)
  | c :: s => if isEnding c then c :: (hidden.headD [] ++ reveal hidden.tail s) else c :: reveal hidden s

/-- Reads raw HTML or a link to itself, or `<` as text. -/
def takeAngle (r : InlineReader) : InlineReader :=
  let s := r.rest.drop 1
  match Link.auto? s, RawHtml.afterTag? true r.rest, RawHtml.afterMarkup? r.rest with
  | some (url, rest), _, _ => r.takeTo rest (.span (.link url []) [.text url])
  | none, some rest, _ => r.takeTo rest (.html (r.rest.take (r.rest.length - rest.length)))
  | none, none, some rest =>
    r.takeTo rest (.html (reveal r.hidden (r.rest.take (r.rest.length - rest.length))))
  | none, none, none => r.takeText 1

/-- Reads a character reference, or `&` as text. -/
def takeReference (r : InlineReader) : InlineReader :=
  match CharRef.atStart? r.rest with
  | some (value, rest) => r.takeTo rest (.text value)
  | none => r.takeText 1

/-- Reads a run of delimiters; `next` is the character behind the text. -/
def takeRun (r : InlineReader) (extensions : Extensions) (next : Option Char) (delimiter : Char) :
    InlineReader :=
  let n := runLength delimiter r.rest
  let next := ((r.rest.drop n).head?).or next
  let opens := opensElement delimiter n r.prev next
  let closes := closesElement delimiter n r.prev next
  if (opens || closes) && isDelimiterRun extensions delimiter n then
    (r.advance n).add (.run delimiter n opens closes)
  else r.takeText n

/-! ### Brackets -/

def openBracket (r : InlineReader) (image : Bool) : InlineReader :=
  let next := r.advance (if image then 2 else 1)
  { next with
    elements := []
    brackets := { image, source := next.rest, before := r.elements } :: r.brackets }

/-- Gives up an open bracket: it is text, like the closing bracket. -/
def dropBracket (r : InlineReader) (b : Bracket) (outer : List Bracket) : InlineReader :=
  { r with elements := r.elements ++ b.text :: b.before, brackets := outer }.takeText 1

/-- Reads up to `rest` as a link or an image. -/
def closeLink (r : InlineReader) (b : Bracket) (outer : List Bracket) (target : Target)
    (rest : Text) : InlineReader :=
  let children := r.elements.reverse
  let brackets :=
    if b.image then outer
    else outer.map fun o => if o.image then o else { o with active := false }
  let tag : Tag := if b.image then .image target.url target.title else .link target.url target.title
  { r with elements := b.before, brackets }.takeTo rest (.span tag children)

/-- Reads up to `rest` as a reference to a footnote. No bracket before it is a link. -/
def closeNote (r : InlineReader) (b : Bracket) (outer : List Bracket) (label rest : Text) :
    InlineReader :=
  let before := b.before ++ outer.flatMap fun o => o.text :: o.before
  let mark := if b.image then [.text "!"] else []
  { r with elements := mark ++ before, brackets := [] }.takeTo rest (.note label)

/-- Closes a bracket that holds the label itself. -/
def closeOwnLabel (r : InlineReader) (extensions : Extensions) (defs : Definitions) (b : Bracket)
    (outer : List Bracket) (rest : Text) : InlineReader :=
  let behind := r.rest.drop 1
  match BracketLabel.read? extensions.footnotes b.source with
  | none => r.dropBracket b outer
  | some (label, ended) =>
    if r.spent = some behind.length || ended.length ≠ behind.length then r.dropBracket b outer
    else
      match label with
      | .note label =>
        if defs.hasNote label then r.closeNote b outer label behind else r.dropBracket b outer
      | .target label =>
        match defs.target? label with
        | some target => r.closeLink b outer target rest
        | none => r.dropBracket b outer

def closeBracket (r : InlineReader) (extensions : Extensions) (defs : Definitions) :
    InlineReader :=
  match r.brackets with
  | [] => r.takeText 1
  | b :: outer =>
    let behind := r.rest.drop 1
    if !b.active then r.dropBracket b outer
    else
      match inlineTarget? behind with
      | some (target, rest) => r.closeLink b outer target rest
      | none =>
        match Reference.read extensions.footnotes behind with
        | .full label rest =>
          let r := { r with spent := some rest.length }
          match defs.target? label with
          | some target => r.closeLink b outer target rest
          | none => r.dropBracket b outer
        | .collapsed rest => r.closeOwnLabel extensions defs b outer rest
        | .shortcut rest => r.closeOwnLabel extensions defs b outer rest

/-! ### The whole text -/

/-- Whether something else than text can begin with `c`. -/
def isSpecial (c : Char) : Bool :=
  isSpacing c || ("\\\x60$<&![]*_~^" : Text).contains c

/-- Reads one element; `next` is the character behind the text. -/
def step (r : InlineReader) (extensions : Extensions) (defs : Definitions) (next : Option Char) :
    InlineReader :=
  match r.rest with
  | [] => r
  | c :: s =>
    if isEnding c then r.takeBreak 0 .softBreak
    else if isGap c then r.takeGap
    else if c = '\\' then r.takeBackslash
    else if c = '\x60' then r.takeCode
    else if c = '$' && extensions.math then r.takeMath
    else if c = '<' && s.head? ≠ some '\\' then r.takeAngle
    else if c = '&' then r.takeReference
    else if c = '!' && s.head? = some '[' then r.openBracket true
    else if c = '[' then r.openBracket false
    else if c = ']' then r.closeBracket extensions defs
    else if c = '*' || c = '_' || c = '~' || c = '^' then r.takeRun extensions next c
    else r.takeText (1 + (s.takeWhile (!isSpecial ·)).length)

def run (extensions : Extensions) (defs : Definitions) (next : Option Char) :
    Nat → InlineReader → InlineReader
  | 0, r => r
  | fuel + 1, r =>
    if r.rest.isEmpty then r
    else run extensions defs next fuel (r.step extensions defs next)

/-- All elements in order; brackets that are still open are text. -/
def result (r : InlineReader) : List Inline :=
  (r.elements ++ r.brackets.flatMap fun b => b.text :: b.before).reverse

end InlineReader

def Source.inlines (source : Source) (extensions : Extensions) (defs : Definitions) :
    List Inline :=
  let reader : InlineReader := { rest := source.text, hidden := source.hidden }
  resolveRuns
    (InlineReader.run extensions defs source.next (source.text.length + 1) reader).result

end Galley.Markdown
