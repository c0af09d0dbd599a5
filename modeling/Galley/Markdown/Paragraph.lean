import Galley.Markdown.Extensions
import Galley.Markdown.OpenBlocks
import Galley.Markdown.RawHtml
import Galley.Markdown.Table

/-!
# Paragraphs

A paragraph goes on until a blank line or a line that begins another block. It can also turn out
to be a heading, by the line under it, or the head of a table. Before a paragraph, definitions of
labels are read off.
-/

namespace Galley.Markdown

/-- What decides how far a paragraph goes: the extensions and the open containers, the outermost
first. -/
structure Surroundings where
  extensions : Extensions
  containers : List Container
deriving Repr

namespace Surroundings

/-- The cursor behind what the open containers begin the line with, and whether the line continues
them all. -/
def enter (env : Surroundings) (c : Cursor) : Bool × Cursor :=
  let (n, c) := continued c env.containers
  (n = env.containers.length, c)

/-! ## What ends a paragraph -/

/-- Whether a list item that begins here ends a paragraph. Within the same container it must not
be empty, and its number must be one. -/
def listInterrupts (inside : Bool) (s : Text) : Bool :=
  match ListMarker.atStart? s with
  | none => false
  | some marker =>
    let rest := s.drop marker.width
    let empty := (afterBlank? rest).any isBlankLine
    endsMarker rest && (!inside || marker.number.getD 1 = 1 && !empty)

/-- Whether a block that begins here ends a paragraph. The line continues all open containers if
`inside` holds. In a table, every list item does. -/
def blockInterrupts (env : Surroundings) (inside inTable : Bool) (s : Text) : Bool :=
  (afterEnding? s).isSome || (afterRule? s).isSome || (headingLevel? s).isSome
    || (CodeFence.atStart? s).isSome || s.head? = some '>'
    || listInterrupts (inside && !inTable) s
    || (RawHtml.interruptingBlock? s).isSome
    || env.extensions.definitionLists && s.head? = some ':'
    || env.extensions.footnotes && (Cursor.ofLine s 0).footnote?.isSome

/-- The alignments of the table that the line `s` is the head of, and what follows the line of
dashes. -/
def table? (env : Surroundings) (s : Text) : Option (List ColumnAlignment × Text) :=
  if !env.extensions.tables then none
  else do
    let line := restOfLine s
    let (inside, c) := env.enter (.ofLine (← afterEnding? (s.drop line.length)) 0)
    let alignments ← Table.alignments? c.rest
    let below ← afterEnding? (c.rest.drop (restOfLine c.rest).length)
    if inside && alignments.length = Table.headCells line then some (alignments, below) else none

def interrupts (env : Surroundings) (inside : Bool) (s : Text) : Bool :=
  env.blockInterrupts inside false s || inside && (env.table? s).isSome

/-- Where a definition goes on in the next line, which must not end a paragraph. -/
def resume? (env : Surroundings) (s : Text) : Option Text :=
  let (inside, c) := env.enter (.ofLine s 0)
  let (columns, c) := c.indent 4
  if columns < 4 && (env.interrupts inside c.rest || (underline? c.rest).isSome) then none
  else some c.rest

/-! ## Definitions of labels -/

/-- What follows blanks with at most one line ending, and whether there was one. -/
def definitionGap? (env : Surroundings) (s : Text) : Option (Bool × Text) :=
  let s := s.dropWhile isGap
  match afterEnding? s with
  | none => some (false, s)
  | some next => do
    let next := (← env.resume? next).dropWhile isGap
    if (afterEnding? next).isSome then none else some (true, next)

/-- A title that fills the rest of its line, and what follows it. -/
def definitionTitle? (env : Surroundings) (s : Text) : Option (Text × Text) := do
  let (title, rest) ← Link.title? env.resume? s
  if isBlankLine rest then some (resolve (dropReturns title), rest) else none

/-- A definition of a label, and what follows it. Without a title, the target ends its line. -/
def definition? (env : Surroundings) (s : Text) : Option (Text × Target × Text) := do
  let s ← Text.dropPrefix? "[" s
  let (label, rest) ← Link.label? env.resume? s
  let rest ← Text.dropPrefix? ":" rest
  let (_, rest) ← env.definitionGap? rest
  let (url, behind) ← Link.url? rest
  let untitled := (label, { url }, behind)
  if behind.length = rest.length then none
  else
    match env.definitionGap? behind with
    | none => some untitled
    | some (newLine, next) =>
      if next.length = behind.length then none
      else
        match env.definitionTitle? next with
        | some (title, rest) => some (label, { url, title }, rest)
        | none => if newLine then some untitled else none

/-! ## Attributes of headings -/

def isAttributeChar (c : Char) : Bool :=
  !(c = '\x7b' || c = '\x7d' || c = '<' || c = '>' || c = '\\' || isEnding c)

def words : Text → List Text
  | [] => []
  | c :: s =>
    if isSpacing c then words s
    else
      match s with
      | [] => [[c]]
      | x :: _ => if isSpacing x then [c] :: words s else Text.consHead c (words s)

/-- The last identifier among attributes. -/
def attributeId? (attributes : Text) : Option Text :=
  (words attributes).foldl
    (fun id word =>
      match word with
      | '#' :: name => if name.isEmpty then id else some name
      | _ => id)
    none

/-- The text of a heading before the attributes at its end, and the identifier that they give. -/
def headingAttributes? (text : Text) : Option (Text × Option Text) :=
  match (Text.dropEndWhile (fun c => c = ' ' || c = '\t' || isEnding c) text).reverse with
  | '\x7d' :: s =>
    match s.dropWhile isAttributeChar with
    | '\x7b' :: before =>
      some (before.reverse, attributeId? (s.takeWhile isAttributeChar).reverse)
    | _ => none
  | _ => none

/-- The content of a heading, cut down by `trim`, and its identifier. -/
def headingContent (env : Surroundings) (trim : Text → Text) (source : Source) :
    Source × Option Text :=
  let found := if env.extensions.headingAttributes then headingAttributes? source.text else none
  match found with
  | none => ({ source with text := trim source.text }, none)
  | some (text, id) =>
    let content := trim text
    ({ source with text := content, next := if content = text then some '\x7b' else none }, id)

/-! ## Reading a paragraph -/

/-- How a paragraph ends. -/
inductive ParagraphEnd
  | plain
  /-- A line under it makes it a heading. -/
  | underlined (level : Nat)
deriving DecidableEq, Repr

/-- Reads a paragraph from a cursor behind the markers and the indentation of its first line: its
source, its end, and the cursor behind it. -/
def readParagraph (env : Surroundings) : Nat → Cursor → Source × ParagraphEnd × Cursor
  | 0, c => ({ text := [] }, .plain, c)
  | fuel + 1, c =>
    let line := restOfLine c.rest
    let ended := c.rest.drop line.length
    match afterEnding? ended with
    | none => ({ text := line }, .plain, c)
    | some next =>
      let start := c.jumpTo next
      let (inside, content) := env.enter start
      let (columns, text) := content.indent 4
      let near := columns < 4
      let stop (ending : ParagraphEnd) (c : Cursor) : Source × ParagraphEnd × Cursor :=
        ({ text := line }, ending, c)
      match if near && inside then underline? text.rest else none with
      | some (level, rest) => stop (.underlined level) (start.jumpTo rest)
      | none =>
        if near && env.interrupts inside text.rest || text.skipBlanks.atEnd then
          stop .plain start
        else
          let (source, ending, behind) := env.readParagraph fuel content
          let lineEnd := ended.take (ended.length - next.length)
          let markers := start.rest.take (start.rest.length - content.rest.length)
          ({ source with
              text := line ++ lineEnd ++ source.text, hidden := markers :: source.hidden },
            ending, behind)

end Surroundings

end Galley.Markdown
