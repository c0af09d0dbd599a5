import Galley.Markdown.Block
import Galley.Markdown.BlockStart
import Galley.Text.CaseFold

/-!
# Open blocks

While a document is read, the blocks that a line may go on in are open, one inside the other. Here
is what a line must begin with to stay in an open block, and how blocks are opened, closed and
put in place. Closing decides what is known only at the end: in a tight list paragraphs lose
their element, and what follows the last definition does not belong to its list.
-/

namespace Galley.Markdown

/-- A block that holds other blocks. -/
inductive Container
  | quote (kind : Option AlertKind)
  /-- A list of items with the same mark; in a tight list no blank lines separate its blocks. -/
  | list (tight : Bool) (mark : Char) (start : Option Nat)
  /-- An item whose lines are indented by so many columns. -/
  | item (indent : Nat)
  | definitionList (tight : Bool)
  | definition (indent : Nat)
  | footnote (label : Text)
deriving DecidableEq, Repr

namespace Container

/-- The cursor behind the indentation if it is there or the line is blank. -/
def indented? (c : Cursor) (n : Nat) : Option Cursor :=
  let (found, c) := c.indent n
  if found = n || c.atEnd then some c else none

/-- The cursor behind what a line of the container begins with. -/
def continues? (c : Cursor) : Container → Option Cursor
  | quote _ => (c.indent 3).2.quote?
  | item indent | definition indent => indented? c indent
  | footnote _ => indented? c 4
  | list .. | definitionList _ => some c

def isList : Container → Bool
  | list .. | definitionList _ => true
  | _ => false

def isItem : Container → Bool
  | item _ | definition _ => true
  | _ => false

/-- A list that is not tight. -/
def loosen : Container → Container
  | list _ mark start => list false mark start
  | definitionList _ => definitionList false
  | container => container

/-- An item that any line continues. -/
def unindent : Container → Container
  | item _ => item 0
  | definition _ => definition 0
  | container => container

end Container

/-- How many of the containers, from the outermost, the line at the cursor continues, and the
cursor behind what they begin with. -/
def continued (c : Cursor) : List Container → Nat × Cursor
  | [] => (0, c)
  | container :: containers =>
    match container.continues? c with
    | none => (0, c)
    | some c =>
      let (n, c) := continued c containers
      (n + 1, c)

/-- An open block and the blocks in it so far, the latest first. -/
structure Frame where
  container : Container
  offset : Nat
  children : List Block := []
deriving Repr

/-- What a closed block becomes: the block, and blocks that follow it, the latest first. -/
def Frame.blocks (f : Frame) : List Block :=
  match f.container with
  | .quote kind => [.quote f.offset kind f.children.reverse]
  | .list tight _ start =>
    let items := f.children.reverse
    [.list f.offset start (if tight then items.map Block.tightenItem else items)]
  | .item _ => [.item f.offset f.children.reverse]
  | .definitionList tight =>
    let items := f.children.reverse.takeWhile Block.isTitleOrDefinition
    let after := (f.children.reverse.drop items.length).map Block.settle
    after.reverse
      ++ [.definitionList f.offset (if tight then items.map Block.tightenItem else items)]
  | .definition _ => [.definition f.offset f.children.reverse]
  | .footnote label => [.footnote f.offset label f.children.reverse]

/-- The blocks of a document while it is read. -/
structure OpenBlocks where
  /-- The open blocks, the innermost first. -/
  frames : List Frame := []
  /-- The closed blocks at the top, the latest first. -/
  top : List Block := []
  /-- Whether an item was begun by a line that holds nothing else. -/
  emptyItem : Bool := false
  /-- Whether a blank line was read that may separate blocks of a list. -/
  blankBefore : Bool := false
  /-- The targets of the defined labels. -/
  targets : List (Text × Target) := []
  /-- The labels of the footnotes that are defined. -/
  notes : List Text := []
deriving Repr

namespace OpenBlocks

def containers (b : OpenBlocks) : List Container := (b.frames.map (·.container)).reverse

def innermost? (b : OpenBlocks) : Option Container := b.frames.head?.map (·.container)

def latest? (b : OpenBlocks) : Option Block :=
  match b.frames with
  | [] => b.top.head?
  | f :: _ => f.children.head?

/-- Changes the blocks in the innermost open block. -/
def modifyBlocks (b : OpenBlocks) (change : List Block → List Block) : OpenBlocks :=
  match b.frames with
  | [] => { b with top := change b.top }
  | f :: frames => { b with frames := { f with children := change f.children } :: frames }

/-- Changes the innermost open container. -/
def modifyInnermost (b : OpenBlocks) (change : Container → Container) : OpenBlocks :=
  match b.frames with
  | [] => b
  | f :: frames => { b with frames := { f with container := change f.container } :: frames }

def add (b : OpenBlocks) (block : Block) : OpenBlocks := b.modifyBlocks (block :: ·)

def push (b : OpenBlocks) (container : Container) (offset : Nat) : OpenBlocks :=
  { b with frames := { container, offset } :: b.frames }

def close (b : OpenBlocks) : OpenBlocks :=
  match b.frames with
  | [] => b
  | f :: frames =>
    let settled :=
      match f.container with
      | .list tight .. => tight
      | .definitionList _ => true
      | _ => false
    { b with frames, emptyItem := b.emptyItem && !settled }.modifyBlocks (f.blocks ++ ·)

def closeMany (b : OpenBlocks) : Nat → OpenBlocks
  | 0 => b
  | n + 1 => b.close.closeMany n

/-- Closes the innermost open block if its container satisfies `p`. -/
def closeIf (b : OpenBlocks) (p : Container → Bool) : OpenBlocks :=
  if b.innermost?.any p then b.close else b

/-- An item that began with a blank line ends at a second one. -/
def endEmptyItem (b : OpenBlocks) : OpenBlocks :=
  let b := if b.emptyItem && b.blankBefore then b.closeIf Container.isItem else b
  { b with emptyItem := false }

/-- A list is loose if blank lines separate the blocks of one of its items. -/
def loosenOuter (b : OpenBlocks) : OpenBlocks :=
  match b.frames with
  | f :: outer :: frames =>
    { b with frames := f :: { outer with container := outer.container.loosen } :: frames }
  | _ => b

/-- Makes room for a block that is no item: a list that is innermost ends. -/
def endList (b : OpenBlocks) : OpenBlocks :=
  let b := b.endEmptyItem.closeIf Container.isList
  if b.blankBefore then { b.loosenOuter with blankBefore := false } else b

/-- A blank line between two items makes their list loose. -/
def separate (b : OpenBlocks) : OpenBlocks :=
  if b.blankBefore then { b.modifyInnermost Container.loosen with blankBefore := false } else b

/-- Makes room for an item: the innermost list goes on if it has the same mark, else a list
begins. -/
def beginItem (b : OpenBlocks) (marker : ListMarker) (offset : Nat) : OpenBlocks :=
  let b := b.endEmptyItem
  match b.innermost? with
  | some (.list _ mark _) =>
    if mark = marker.mark then b.separate
    else { b.endList.push (.list true marker.mark marker.number) offset with blankBefore := false }
  | _ => { b.endList.push (.list true marker.mark marker.number) offset with blankBefore := false }

/-- Makes room for a definition: the paragraph before it becomes a title. Without such a
paragraph or another definition before it there is none. -/
def beginDefinition? (b : OpenBlocks) : Option OpenBlocks :=
  match b.latest? with
  | some (.paragraph offset source) =>
    some (((b.modifyBlocks List.tail).push (.definitionList true) offset).add
      (.title offset source)).separate
  | some (.possibleTitle offset source) =>
    some ((b.modifyBlocks List.tail).add (.title offset source)).separate
  | some (.definition ..) => some b.separate
  | _ => none

/-- Defines a label; the first definition counts. -/
def define (b : OpenBlocks) (label : Text) (target : Target) : OpenBlocks :=
  { b with targets := b.targets ++ [(Text.fold label, target)] }

def blankLine (b : OpenBlocks) : OpenBlocks :=
  match b.innermost? with
  | some (.quote _) => b
  | some container =>
    let b := { b with blankBefore := true }
    if b.emptyItem && container.isItem then b.modifyInnermost Container.unindent else b
  | none => { b with blankBefore := true }

end OpenBlocks

end Galley.Markdown
