import Galley.Markdown.Event

/-!
# Blocks

A document is a tree of blocks. Its leaves hold text in which inline elements are still to be
found. The text of a paragraph is that of its lines without the markers of the blocks around it.
-/

namespace Galley.Markdown

structure Source where
  text : Text
  /-- What was left out behind each line ending. -/
  hidden : List Text := []
  /-- The character that follows the text in the document, if it is on the same line. -/
  next : Option Char := none
  /-- The mark of a task that stands before the text. -/
  task : Option Bool := none
deriving DecidableEq, Repr

/-- A piece of an HTML block: HTML, or blanks that indent it. -/
inductive HtmlPiece
  | html (text : Text)
  | indent (text : Text)
deriving DecidableEq, Repr

/-- A block, with the byte offset at which it begins. -/
inductive Block
  | paragraph (offset : Nat) (source : Source)
  /-- A paragraph without an element of its own. -/
  | plain (offset : Nat) (source : Source)
  | heading (offset level : Nat) (id : Option Text) (source : Source)
  | rule (offset : Nat)
  /-- The info string of a fenced block; an indented block has none. -/
  | code (offset : Nat) (info : Option Text) (lines : List Text)
  | html (offset : Nat) (pieces : List HtmlPiece)
  | metadata (offset : Nat) (lines : List Text)
  /-- The first row is the head. -/
  | table (offset : Nat) (alignments : List ColumnAlignment) (head : List Source)
    (rows : List (List Source))
  | quote (offset : Nat) (kind : Option AlertKind) (children : List Block)
  | list (offset : Nat) (start : Option Nat) (items : List Block)
  | item (offset : Nat) (children : List Block)
  | definitionList (offset : Nat) (children : List Block)
  | title (offset : Nat) (source : Source)
  /-- A paragraph behind a definition: a title if a definition follows. -/
  | possibleTitle (offset : Nat) (source : Source)
  | definition (offset : Nat) (children : List Block)
  | footnote (offset : Nat) (label : Text) (children : List Block)
deriving Repr

namespace Block

/-- A child of a tight item: a paragraph has no element of its own. -/
def tighten : Block → Block
  | paragraph offset source => plain offset source
  | block => block

/-- An item of a tight list. -/
def tightenItem : Block → Block
  | item offset children => item offset (children.map tighten)
  | definition offset children => definition offset (children.map tighten)
  | block => block

/-- Whether the block can stand in a definition list. -/
def isTitleOrDefinition : Block → Bool
  | title .. | definition .. => true
  | _ => false

/-- A possible title that turned out to be none. -/
def settle : Block → Block
  | possibleTitle offset source => paragraph offset source
  | block => block

end Block

end Galley.Markdown
