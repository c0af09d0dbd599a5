/-!
# Extensions

What a document may use beside plain CommonMark.
-/

namespace Galley.Markdown

structure Extensions where
  tables : Bool := false
  footnotes : Bool := false
  strikethrough : Bool := false
  taskLists : Bool := false
  /-- Attributes in braces at the end of a heading. -/
  headingAttributes : Bool := false
  /-- Metadata between lines of three dashes. -/
  metadata : Bool := false
  math : Bool := false
  /-- Block quotes that are alerts. -/
  alerts : Bool := false
  definitionLists : Bool := false
  superscript : Bool := false
  subscript : Bool := false
deriving DecidableEq, Repr

namespace Extensions

def all : Extensions where
  tables := true
  footnotes := true
  strikethrough := true
  taskLists := true
  headingAttributes := true
  metadata := true
  math := true
  alerts := true
  definitionLists := true
  superscript := true
  subscript := true

end Extensions

end Galley.Markdown
