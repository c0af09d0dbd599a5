import Galley.Document.MatterBlock
import Galley.Document.Options

/-!
# The automatic table of contents

A document with headings, but without a marker of its own, gets a marker if tables of contents
are switched on or if it lies in a blog folder. The marker goes behind the front matter block, or
to the very start. Lines of the changed document can be mapped back to the given one.
-/

namespace Galley.Document

/-- Where lines were inserted into a document. -/
structure Insertion where
  /-- The number of the first inserted line. -/
  line : Nat
  /-- How many lines were inserted. -/
  lines : Nat
deriving DecidableEq, Repr

/-- The line that a line of the changed document was before; an inserted line belongs to the line
that it was inserted before. -/
def Insertion.originalLine (insertion : Insertion) (line : Nat) : Nat :=
  if line < insertion.line then line
  else if insertion.line + insertion.lines ≤ line then line - insertion.lines
  else insertion.line

/-- When documents get a marker. -/
structure AutoToc where
  /-- Whether every document with headings gets one. -/
  enabled : Bool
  /-- The folders whose documents get one in any case. -/
  blogFolders : List Text
deriving DecidableEq, Repr

/-- When a document gets a marker under some options. -/
def Options.autoToc (options : Options) : AutoToc := ⟨options.toc.enabled, options.blogFolders⟩

namespace AutoToc

/-- The inserted marker; the empty title leaves it to the options. -/
def marker : Text := "[TOC]: # ''\n  \n"

def applies (auto : AutoToc) (markup : Text) (presentation : Bool) (folder : Option Text) :
    Bool :=
  !presentation && !Text.hasInfix "[TOC]" markup
    && (Text.hasInfix "#" markup || Text.hasInfix "<h" markup)
    && (folder.any auto.blogFolders.contains || auto.enabled)

/-- What is inserted behind a front matter block. -/
def afterBlock (block : Text) : Text :=
  Text.when (!Text.hasSuffix "\n" block) "\n" ++ "\n" ++ marker

/-- Inserts the marker: the changed markup, and where the lines are. -/
def place (markup : Text) : Text × Insertion :=
  let block? :=
    if Text.hasPrefix MatterBlock.delimiter markup then MatterBlock.split? markup else none
  match block? with
  | some (block, rest) =>
    let inserted := afterBlock block
    (block ++ inserted ++ rest, ⟨block.count '\n' + 1, inserted.count '\n'⟩)
  | none => (marker ++ markup, ⟨1, marker.count '\n'⟩)

/-- The markup with a marker if the document gets one. -/
def insert (auto : AutoToc) (markup : Text) (presentation : Bool) (folder : Option Text) :
    Text × Option Insertion :=
  if auto.applies markup presentation folder then
    let (changed, insertion) := place markup
    (changed, some insertion)
  else (markup, none)

end AutoToc

end Galley.Document
