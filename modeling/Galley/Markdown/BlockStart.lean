import Galley.Markdown.Cursor
import Galley.Markdown.Event
import Galley.Markdown.Link

/-!
# Beginnings of blocks

Each kind of block is recognised by the start of a line. The functions here look at a text that
begins at the first character of such a line that is no indentation.
-/

namespace Galley.Markdown

/-! ## Rules and headings -/

/-- What follows a line that is a rule: three or more equal marks and else only blanks. -/
def afterRule? (s : Text) : Option Text :=
  match s with
  | [] => none
  | mark :: _ =>
    let line := restOfLine s
    let isMark := mark = '*' || mark = '-' || mark = '_'
    if isMark && line.all (fun c => c = mark || c = ' ' || c = '\t') && 3 ≤ line.count mark then
      afterEnding? (s.drop line.length)
    else none

/-- The level of a heading that begins with number signs. -/
def headingLevel? (s : Text) : Option Nat :=
  let level := runLength '#' s
  let closed :=
    match s.drop level with
    | [] => true
    | c :: _ => isSpacing c
  if closed && 1 ≤ level && level ≤ 6 then some level else none

/-- The level of the heading that a line underlines, and what follows the line. -/
def underline? (s : Text) : Option (Nat × Text) :=
  let read (mark : Char) (level : Nat) : Option (Nat × Text) :=
    if s.head? = some mark then
      (afterBlank? (s.drop (runLength mark s))).map fun rest => (level, rest)
    else none
  (read '=' 1).or (read '-' 2)

/-! ## Fenced code -/

/-- The fence of a code block: its character and its length. -/
structure CodeFence where
  char : Char
  length : Nat
deriving DecidableEq, Repr

/-- The fence at the start of a text. No backtick follows a fence of backticks on its line. -/
def CodeFence.atStart? : Text → Option CodeFence
  | [] => none
  | c :: s =>
    let length := runLength c s + 1
    let line := (cutLine (s.drop (length - 1))).1
    if 3 ≤ length && (c = '~' || c = '\x60' && !line.contains '\x60') then some ⟨c, length⟩
    else none

/-- What follows the line that closes the fence; the end of the text closes it too. -/
def CodeFence.afterClosing? (fence : CodeFence) (s : Text) : Option Text :=
  if s.isEmpty then some []
  else
    let length := runLength fence.char s
    if length < fence.length then none
    else
      let rest := (s.drop length).dropWhile (· = ' ')
      if (afterEnding? rest).isSome then some rest else none

/-! ## Metadata -/

/-- What follows the marks of a line that closes metadata. -/
def afterMetadata? (s : Text) : Option Text :=
  if runLength '-' s = 3 || runLength '.' s = 3 then
    let rest := (s.drop 3).dropWhile (· = ' ')
    if (afterEnding? rest).isSome then some rest else none
  else none

/-- Whether some line of the text closes metadata. -/
def metadataCloses : Nat → Text → Bool
  | 0, _ => false
  | fuel + 1, s =>
    (afterMetadata? s).isSome || !s.isEmpty && metadataCloses fuel (cutLine s).2

/-- Whether metadata begins here: after a line of three dashes comes a line that is neither blank
nor the end of the metadata, and some later line is the end. -/
def beginsMetadata (s : Text) : Bool :=
  let (line, body) := cutLine (s.drop 3)
  runLength '-' s = 3 && line.all (fun c => isSpacing c && c ≠ '\x0b') && !isBlankLine body && (afterMetadata? body).isNone
    && metadataCloses (body.length + 1) body

/-! ## List markers -/

/-- The marker of a list item: a bullet, or the mark behind a number. -/
structure ListMarker where
  mark : Char
  /-- The number of an ordered item. -/
  number : Option Nat
  /-- How many characters the marker has. -/
  width : Nat
deriving DecidableEq, Repr

def ListMarker.bullets : List Char := ['-', '+', '*']

/-- The marker at the start of a text: a bullet, or at most nine digits and a dot or parenthesis. -/
def ListMarker.atStart? (s : Text) : Option ListMarker :=
  match s with
  | [] => none
  | c :: _ =>
    if bullets.contains c then some ⟨c, none, 1⟩
    else
      let digits := s.takeWhile Char.isDigit
      match Numeral.natural? 10 digits, s.drop digits.length with
      | some n, mark :: _ =>
        if digits.length ≤ 9 && (mark = '.' || mark = ')') then
          some ⟨mark, some n, digits.length + 1⟩
        else none
      | _, _ => none

/-- Whether a blank or the end of the line follows a marker. -/
def endsMarker : Text → Bool
  | [] => true
  | c :: _ => c = ' ' || c = '\t' || isEnding c

/-- A list item that begins at the cursor, behind `outer` columns of indentation: its marker, the
columns that its content is indented by, and the cursor at its content. -/
def Cursor.listItem? (c : Cursor) (outer : Nat) : Option (ListMarker × Nat × Cursor) := do
  let marker ← ListMarker.atStart? c.rest
  let isRule := (afterRule? c.rest).isSome
  let behind := c.skip marker.width
  let (gap, start) := behind.indent 1
  let indent := outer + marker.width + 1
  if isRule || !(gap = 1 || behind.atEnd) then none
  else if isBlankLine start.rest then some (marker, indent, start)
  else
    let (more, content) := start.indent 4
    if more < 4 then some (marker, indent + more, content) else some (marker, indent, start)

/-- The mark of a task at the cursor: whether it is checked, and the cursor behind it. -/
def Cursor.task? (c : Cursor) : Option (Bool × Cursor) :=
  let (_, c) := c.indent 3
  match c.rest with
  | '[' :: mark :: ']' :: next :: _ =>
    if !isGap next then none
    else if isGap mark then some (false, c.skip 3)
    else if mark = 'x' || mark = 'X' then some (true, c.skip 3)
    else none
  | _ => none

/-! ## Other containers -/

/-- The columns that a definition is indented by, and the cursor at its content. -/
def Cursor.definition? (c : Cursor) (outer : Nat) : Option (Nat × Cursor) :=
  match c.rest with
  | ':' :: _ =>
    let (gap, content) := (c.skip 1).indent (3 - outer)
    some (outer + 1 + gap, content)
  | _ => none

/-- The cursor behind the marker of a block quote. -/
def Cursor.quote? (c : Cursor) : Option Cursor :=
  match c.rest with
  | '>' :: _ => some ((c.skip 1).indent 1).2
  | _ => none

/-- How the kinds of alert are written. -/
def alertMarks : List (String × AlertKind) :=
  [("[!note]", .note), ("[!tip]", .tip), ("[!important]", .important),
    ("[!warning]", .warning), ("[!caution]", .caution)]

/-- The kind of alert that fills the rest of the line, and the cursor at the next line. -/
def Cursor.alert? (c : Cursor) : Option (AlertKind × Cursor) :=
  let found := alertMarks.find? fun (mark, _) =>
    Text.hasPrefix mark ((c.rest.take mark.length).map Char.toLower)
  found.bind fun (mark, kind) =>
    (afterBlank? (c.rest.drop mark.length)).map fun next => (kind, c.jumpTo next)

/-- The label of a footnote definition, and the cursor at its content. -/
def Cursor.footnote? (c : Cursor) : Option (Text × Cursor) :=
  match c.rest with
  | '[' :: '^' :: s =>
    match Link.label? (fun _ => none) s with
    | some (label, ':' :: rest) => some (label, c.jumpTo (rest.dropWhile isGap))
    | _ => none
  | _ => none

end Galley.Markdown
