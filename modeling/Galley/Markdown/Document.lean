import Galley.Markdown.Blocks
import Galley.Markdown.InlineReader

/-!
# Documents

Reading a document has two stages: its lines become a tree of blocks and the definitions of its
labels; then the inline elements of the leaves are read, which needs all definitions. The result
is the sequence of events of the tree.
-/

namespace Galley.Markdown

/-- A document before its inline elements are read. -/
structure Document where
  blocks : List Block
  definitions : Definitions

namespace Document

/-- Reads the blocks and the definitions of a document. -/
def ofText (extensions : Extensions) (text : Text) : Document :=
  let read := OpenBlocks.ofText extensions text
  { blocks := read.blocks, definitions := { targets := read.targets, notes := read.notes } }

end Document

/-! ## Events -/

/-- What the events of a block depend on. -/
structure InlineContext where
  extensions : Extensions
  definitions : Definitions

namespace InlineContext

def element (offset : Nat) (tag : Tag) (content : List Located) : List Located :=
  ⟨.start tag, offset⟩ :: content ++ [⟨.stop tag.toEnd, offset⟩]

/-- Events at the offset of their block. -/
def at_ (offset : Nat) (events : List Event) : List Located := events.map (⟨·, offset⟩)

def inline (ctx : InlineContext) (offset : Nat) (source : Source) : List Located :=
  at_ offset ((source.task.map Event.taskMarker).toList
    ++ Inline.listEvents (source.inlines ctx.extensions ctx.definitions))

def cells (ctx : InlineContext) (offset : Nat) (row : List Source) : List Located :=
  row.flatMap fun cell => element offset .tableCell (ctx.inline offset cell)

def pieceEvent : HtmlPiece → Event
  | .html s => .html s
  | .indent s => .text s

mutual

def blockEvents (ctx : InlineContext) : Block → List Located
  | .paragraph offset source => element offset .paragraph (ctx.inline offset source)
  | .plain offset source => ctx.inline offset source
  | .heading offset level id source =>
    element offset (.heading level id) (ctx.inline offset source)
  | .rule offset => [⟨.rule, offset⟩]
  | .code offset info lines => element offset (.codeBlock info) (at_ offset (lines.map .text))
  | .html offset pieces => element offset .htmlBlock (at_ offset (pieces.map pieceEvent))
  | .metadata offset lines => element offset .metadata (at_ offset (lines.map .text))
  | .table offset alignments head rows =>
    element offset (.table alignments)
      (element offset .tableHead (ctx.cells offset head)
        ++ rows.flatMap fun row => element offset .tableRow (ctx.cells offset row))
  | .quote offset kind children =>
    element offset (.blockQuote kind) (listEvents ctx children)
  | .list offset start items => element offset (.list start) (listEvents ctx items)
  | .item offset children => element offset .item (listEvents ctx children)
  | .definitionList offset children =>
    element offset .definitionList (listEvents ctx children)
  | .title offset source => element offset .definitionTitle (ctx.inline offset source)
  | .possibleTitle offset source => element offset .paragraph (ctx.inline offset source)
  | .definition offset children => element offset .definition (listEvents ctx children)
  | .footnote offset label children =>
    element offset (.footnoteDefinition label) (listEvents ctx children)

def listEvents (ctx : InlineContext) : List Block → List Located
  | [] => []
  | block :: blocks => ctx.blockEvents block ++ listEvents ctx blocks

end

end InlineContext

/-- The events of a document. An inline event has the offset of its block. -/
def parse (extensions : Extensions) (text : Text) : List Located :=
  let document := Document.ofText extensions text
  InlineContext.listEvents ⟨extensions, document.definitions⟩ document.blocks

end Galley.Markdown
