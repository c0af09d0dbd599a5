import Galley.Markdown.Paragraph

/-!
# Code, raw HTML and tables

Blocks without other blocks in them, apart from paragraphs. Such a block goes on as long as its
lines continue the open containers.
-/

namespace Galley.Markdown

namespace Surroundings

/-! ## Code -/

/-- The columns of a tab that belong to a line. -/
def leftOver (c : Cursor) : Text := List.replicate c.pending ' '

/-- A line of code at the cursor, and the cursor at the next line. -/
def readCodeLine (c : Cursor) : Text × Cursor :=
  let (line, rest) := cutLine c.rest
  (leftOver c ++ codeLine line, c.jumpTo rest)

/-- Reads indented code from its first line on: the lines, each with whether it is blank, and the
cursor behind them. -/
def readIndented (env : Surroundings) : Nat → Bool → Cursor → List (Bool × Text) × Cursor
  | 0, _, c => ([], c)
  | fuel + 1, blank, c =>
    let (line, start) := readCodeLine c
    let (inside, content) := env.enter start
    let (columns, text) := content.indent 4
    if inside && (columns = 4 || text.atEnd) && !text.rest.isEmpty then
      let (lines, behind) := env.readIndented fuel (isBlankLine text.rest) text
      ((blank, line) :: lines, behind)
    else ([(blank, line)], start)

/-- Indented code without the blank lines at its end, and whether there were any. -/
def dropBlankEnd (lines : List (Bool × Text)) : List Text × Bool :=
  let kept := (lines.reverse.dropWhile (·.1)).reverse
  (kept.map (·.2), kept.length ≠ lines.length)

/-- Reads the lines of fenced code, the fence of which is indented by `indent` columns, and the
cursor behind the closing fence. A line that leaves the open containers ends the block. -/
def readFenced (env : Surroundings) (fence : CodeFence) (indent : Nat) :
    Nat → Cursor → List Text × Cursor
  | 0, c => ([], c)
  | fuel + 1, c =>
    let (inside, content) := env.enter c
    if !inside then ([], c)
    else
      let (_, text) := content.indent indent
      let (columns, close) := text.indent (4 - indent)
      let closing := if columns < 4 - indent then fence.afterClosing? close.rest else none
      match closing with
      | some rest => ([], close.jumpTo ((afterBlank? rest).getD rest))
      | none =>
        let (line, next) := readCodeLine text
        let (lines, behind) := env.readFenced fence indent fuel next
        (line :: lines, behind)

/-- The info string behind a fence, and the cursor at the next line. -/
def readInfo (c : Cursor) : Text × Cursor :=
  let (line, rest) := cutLine c.rest
  let info := Text.dropEndWhile isSpacing (line.dropWhile isGap)
  (resolve (dropReturns info), c.jumpTo rest)

/-! ## Metadata -/

def readMetadata (env : Surroundings) : Nat → Cursor → List Text × Cursor
  | 0, c => ([], c)
  | fuel + 1, c =>
    let (inside, content) := env.enter c
    if !inside then ([], c)
    else
      match afterMetadata? c.rest with
      | some rest => ([], c.jumpTo ((afterBlank? rest).getD rest))
      | none =>
        let (line, next) := readCodeLine content
        let (lines, behind) := env.readMetadata fuel next
        (line :: lines, behind)

/-! ## Raw HTML -/

/-- The pieces of a line: blanks that indent it, and the line without its carriage return. -/
def htmlLine (indent : Nat) (line : Text) : List HtmlPiece :=
  let indent := if indent = 0 then [] else [.indent (List.replicate indent ' ')]
  match line.reverse with
  | last :: '\r' :: line => indent ++ [.html line.reverse, .html [last]]
  | _ => indent ++ [.html line]

/-- Reads raw HTML from its first line on, which is indented by `indent` columns: its pieces, and
the cursor behind it. -/
def readHtml (env : Surroundings) (ending : RawHtml.BlockEnd) :
    Nat → Nat → Cursor → List HtmlPiece × Cursor
  | 0, _, c => ([], c)
  | fuel + 1, indent, c =>
    let (line, rest) := cutLine c.rest
    let start := c.jumpTo rest
    let (inside, content) := env.enter start
    let pieces := htmlLine indent line
    let ends :=
      match ending with
      | .containing text => Text.hasInfix text line || content.rest.isEmpty
      | .blankLine => isBlankLine content.rest
    if !inside || ends then (pieces, start)
    else
      let (more, behind) := env.readHtml ending fuel content.pending content
      (pieces ++ more, behind)

/-! ## Tables -/

/-- A row of a table with `n` columns. -/
def tableRow (n : Nat) (cells : List Text) : List Source :=
  (Table.fit n cells).map fun text => { text }

/-- Reads the rows of a table with `n` columns below its head, and the cursor behind them. -/
def readRows (env : Surroundings) (n : Nat) : Nat → Cursor → List (List Source) × Cursor
  | 0, c => ([], c)
  | fuel + 1, c =>
    let (inside, content) := env.enter c
    let s := content.skipBlanks.rest
    let line := restOfLine s
    let cells := Table.cells line
    if !inside || env.blockInterrupts true true s || cells.isEmpty then ([], c)
    else
      let next := c.jumpTo ((afterEnding? (s.drop line.length)).getD [])
      let (rows, behind) := env.readRows n fuel next
      (tableRow n cells :: rows, behind)

end Surroundings

end Galley.Markdown
