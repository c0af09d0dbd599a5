import Galley.Markdown.Leaf

/-!
# Reading blocks

A document is read block by block. At each step the line continues some of the open containers and
the others are closed; then the line may open new containers; and what is left of it is blank,
begins a leaf, or only defines a label.
-/

namespace Galley.Markdown

namespace OpenBlocks

/-- The surroundings of what is read next. -/
def surroundings (b : OpenBlocks) (extensions : Extensions) : Surroundings :=
  ⟨extensions, b.containers⟩

/-! ## Containers -/

/-- What opening containers comes to: the line is used up, or a leaf is still to be read. -/
inductive Opened
  | finished (blocks : OpenBlocks) (next : Cursor)
  /-- The mark of a task may stand before the leaf. -/
  | leaf (blocks : OpenBlocks) (task : Option Bool) (content : Cursor)

/-- Begins an item or definition with its content at the cursor; the rest of the line may be
blank. -/
def beginContent (b : OpenBlocks) (c : Cursor) : OpenBlocks × Option Cursor :=
  match afterBlank? c.rest with
  | some next => ({ b with emptyItem := true }, some (c.jumpTo next))
  | none => (b, none)

/-- Opens a footnote definition; such definitions do not nest. -/
def openFootnote (b : OpenBlocks) (label : Text) (offset : Nat) : OpenBlocks :=
  let b := b.endList.closeIf fun container =>
    match container with
    | .footnote _ => true
    | _ => false
  { b.push (.footnote label) offset with notes := Text.fold label :: b.notes }

/-- Opens an alert whose mark fills the line before the cursor. Text in the next line belongs to
the alert even if that line does not continue it. -/
def openAlert (b : OpenBlocks) (extensions : Extensions) (next : Cursor) : Opened :=
  let env := b.surroundings extensions
  let (inside, content) := env.enter next
  let (columns, text) := content.indent 4
  if columns < 4 && env.interrupts inside text.rest then .finished b next
  else .leaf b none text.skipBlanks

def openContainers (extensions : Extensions) :
    Nat → Option Bool → OpenBlocks → Cursor → Opened
  | 0, task, b, c => .leaf b task c
  | fuel + 1, task, b, line =>
    let (outer, c) := line.indent 4
    let openItem (marker : ListMarker) (indent : Nat) (content : Cursor) : Opened :=
      let offset := c.offset - outer
      let b := (b.beginItem marker offset).push (.item indent) offset
      match b.beginContent content with
      | (b, some next) => .finished b next
      | (b, none) =>
        match if extensions.taskLists then content.task? else none with
        | none => openContainers extensions fuel task b content
        | some (checked, behind) =>
          let marked : Source := { text := [], task := some checked }
          match b.beginContent behind with
          | (b, some next) => .finished (b.add (.paragraph content.offset marked)) next
          | (b, none) => openContainers extensions fuel (some checked) b behind
    let openDefinition (b : OpenBlocks) (indent : Nat) (content : Cursor) : Opened :=
      match (b.push (.definition indent) (c.offset - outer)).beginContent content with
      | (b, some next) => .finished b next
      | (b, none) => openContainers extensions fuel task b content
    let openQuote (content : Cursor) : Opened :=
      match if extensions.alerts then content.alert? else none with
      | none => openContainers extensions fuel task (b.endList.push (.quote none) c.offset) content
      | some (kind, next) =>
        openAlert (b.endList.push (.quote (some kind)) c.offset) extensions next
    let definition? :=
      if extensions.definitionLists then
        b.beginDefinition?.bind fun b => (c.definition? outer).map fun d => (b, d)
      else none
    if 4 ≤ outer then .leaf b task line
    else
      match if extensions.footnotes then c.footnote? else none with
      | some (label, content) =>
        openContainers extensions fuel task (b.openFootnote label c.offset) content
      | none =>
        match c.listItem? outer, definition?, c.quote? with
        | some (marker, indent, content), _, _ => openItem marker indent content
        | none, some (b, indent, content), _ => openDefinition b indent content
        | none, none, some content => openQuote content
        | none, none, none => .leaf b task line

/-! ## Leaves -/

/-- Reads a paragraph, which may turn out to be a heading or a table. -/
def addParagraph (b : OpenBlocks) (extensions : Extensions) (task : Option Bool) (c : Cursor) :
    OpenBlocks × Cursor :=
  let behindDefinition :=
    match b.innermost?, b.latest? with
    | some (.definitionList _), some (.definition ..) => true
    | _, _ => false
  let b := if behindDefinition then { b with blankBefore := false } else b.endList
  let env := b.surroundings extensions
  let line := restOfLine c.rest
  match if 0 < Table.pipes false line then env.table? c.rest else none with
  | some (alignments, below) =>
    let columns := alignments.length
    let (rows, behind) := env.readRows columns (c.rest.length + 1) (c.jumpTo below)
    (b.add (.table c.offset alignments (Surroundings.tableRow columns (Table.cells line)) rows),
      behind)
  | none =>
    let (source, ending, behind) := env.readParagraph (c.rest.length + 1) c
    let source := { source with task }
    match ending with
    | .underlined level =>
      let (content, id) := env.headingContent (Text.dropEndWhile isGap) source
      (b.add (.heading c.offset level id content), behind)
    | .plain =>
      if behindDefinition then (b.add (.possibleTitle c.offset source), behind)
      else (b.add (.paragraph c.offset source), behind)

/-- The text of a heading without the number signs that close it. -/
def withoutClosing (text : Text) : Text :=
  let text := Text.dropEndWhile (fun c => c = ' ' || isEnding c) text
  let before := Text.dropEndWhile (· = '#') text
  match before.reverse with
  | [] => []
  | ' ' :: _ => Text.dropEndWhile (· = ' ') before
  | _ => text

/-- Reads a heading that begins with number signs. -/
def addHeading (b : OpenBlocks) (extensions : Extensions) (level : Nat) (c : Cursor) :
    OpenBlocks × Cursor :=
  let behind := c.skip level
  match afterEnding? behind.rest with
  | some next => (b.add (.heading c.offset level none { text := [] }), c.jumpTo next)
  | none =>
    let (line, next) := cutLine (behind.rest.dropWhile isGap)
    let env := b.surroundings extensions
    let (content, id) := env.headingContent withoutClosing { text := line }
    (b.add (.heading c.offset level id content), c.jumpTo next)

/-- Reads the leaf at the cursor, behind the markers of a line. -/
def addLeaf (b : OpenBlocks) (extensions : Extensions) (task : Option Bool) (line : Cursor) :
    OpenBlocks × Cursor :=
  let fuel := line.rest.length + 1
  let env := b.surroundings extensions
  let (columns, c) := line.indent 4
  let ended := b.endList
  let inner := ended.surroundings extensions
  if columns = 4 then
    let (lines, behind) := inner.readIndented fuel false c
    let (lines, blank) := Surroundings.dropBlankEnd lines
    ({ ended with blankBefore := blank }.add (.code c.offset none lines), behind)
  else if columns = 0 && extensions.metadata && beginsMetadata c.rest then
    let (lines, behind) := inner.readMetadata fuel (c.jumpTo (cutLine c.rest).2)
    (ended.add (.metadata c.offset lines), behind)
  else
    match RawHtml.block? c.rest, afterRule? c.rest, headingLevel? c.rest,
      CodeFence.atStart? c.rest with
    | some ending, _, _, _ =>
      let (pieces, behind) := inner.readHtml ending fuel columns c
      (ended.add (.html c.offset pieces), behind)
    | none, some next, _, _ => (ended.add (.rule c.offset), c.jumpTo next)
    | none, none, some level, _ => ended.addHeading extensions level c
    | none, none, none, some fence =>
      let (info, body) := Surroundings.readInfo (c.skip fence.length)
      let (lines, behind) := inner.readFenced fence columns fuel body
      (ended.add (.code c.offset (some info) lines), behind)
    | none, none, none, none =>
      match env.definition? c.rest with
      | some (label, target, rest) =>
        (b.define label target, c.jumpTo ((afterBlank? rest).getD rest))
      | none => b.addParagraph extensions task c

/-! ## Documents -/

/-- Reads one block from the start of a line. -/
def readBlock (b : OpenBlocks) (extensions : Extensions) (c : Cursor) : OpenBlocks × Cursor :=
  let (n, content) := continued c b.containers
  let b := b.closeMany (b.frames.length - n)
  match openContainers extensions (c.rest.length + 1) none b content with
  | .finished b next => (b, next)
  | .leaf b task content =>
    match afterBlank? content.rest with
    | some next => (b.blankLine, content.jumpTo next)
    | none => b.addLeaf extensions task content

def readBlocks (extensions : Extensions) : Nat → OpenBlocks → Cursor → OpenBlocks
  | 0, b, _ => b
  | fuel + 1, b, c =>
    if c.rest.isEmpty then b
    else
      let (b, c) := b.readBlock extensions c
      readBlocks extensions fuel b c.newLine

/-- The blocks of a document, all closed. -/
def ofText (extensions : Extensions) (text : Text) : OpenBlocks :=
  let b := readBlocks extensions (text.length + 1) {} (.ofLine text 0)
  b.closeMany b.frames.length

/-- The closed blocks at the top, in order. -/
def blocks (b : OpenBlocks) : List Block := b.top.reverse

end OpenBlocks

end Galley.Markdown
