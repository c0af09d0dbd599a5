import Galley.Text

/-!
# Markdown events

A parsed document is a sequence of events: elements start and end, and between them stand texts,
code, math, raw HTML, breaks and references. The type admits every sequence, also one in which
starts and ends do not match.
-/

namespace Galley.Markdown

inductive AlertKind
  | note | tip | important | warning | caution
deriving DecidableEq, Repr

inductive ColumnAlignment
  | none | left | center | right
deriving DecidableEq, Repr

inductive Tag
  | paragraph
  | heading (level : Nat) (id : Option Text)
  | blockQuote (kind : Option AlertKind)
  /-- The info string of a fenced block; an indented block has none. -/
  | codeBlock (info : Option Text)
  /-- The number of the first item of an ordered list; a bullet list has none. -/
  | list (start : Option Nat)
  | item
  | footnoteDefinition (label : Text)
  | metadata
  | htmlBlock
  | definitionList
  | definitionTitle
  | definition
  | table (alignments : List ColumnAlignment)
  | tableHead
  | tableRow
  | tableCell
  | emphasis
  | strong
  | strikethrough
  | superscript
  | subscript
  | link (url title : Text)
  | image (url title : Text)
deriving DecidableEq, Repr

inductive TagEnd
  | paragraph
  | heading (level : Nat)
  | blockQuote (kind : Option AlertKind)
  | codeBlock
  | list (ordered : Bool)
  | item
  | footnoteDefinition
  | metadata
  | htmlBlock
  | definitionList
  | definitionTitle
  | definition
  | table
  | tableHead
  | tableRow
  | tableCell
  | emphasis
  | strong
  | strikethrough
  | superscript
  | subscript
  | link
  | image
deriving DecidableEq, Repr

/-- The end that matches a start. -/
def Tag.toEnd : Tag → TagEnd
  | .paragraph => .paragraph
  | .heading level _ => .heading level
  | .blockQuote kind => .blockQuote kind
  | .codeBlock _ => .codeBlock
  | .list start => .list start.isSome
  | .item => .item
  | .footnoteDefinition _ => .footnoteDefinition
  | .metadata => .metadata
  | .htmlBlock => .htmlBlock
  | .definitionList => .definitionList
  | .definitionTitle => .definitionTitle
  | .definition => .definition
  | .table _ => .table
  | .tableHead => .tableHead
  | .tableRow => .tableRow
  | .tableCell => .tableCell
  | .emphasis => .emphasis
  | .strong => .strong
  | .strikethrough => .strikethrough
  | .superscript => .superscript
  | .subscript => .subscript
  | .link _ _ => .link
  | .image _ _ => .image

/-- One event. -/
inductive Event
  | start (tag : Tag)
  | stop (tag : TagEnd)
  | text (text : Text)
  | code (text : Text)
  /-- A piece of an HTML block. -/
  | html (text : Text)
  | inlineHtml (text : Text)
  | inlineMath (text : Text)
  | displayMath (text : Text)
  | footnoteReference (label : Text)
  | softBreak
  | hardBreak
  | rule
  | taskMarker (checked : Bool)
deriving DecidableEq, Repr

/-- An event and the byte offset at which its source begins. -/
structure Located where
  event : Event
  offset : Nat
deriving DecidableEq, Repr

end Galley.Markdown
