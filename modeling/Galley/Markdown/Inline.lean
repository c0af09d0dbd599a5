import Galley.Markdown.Event

/-!
# Inline elements

The text of a leaf becomes a list of inline elements. A run of delimiters is an element as long as
it is not known which of them match.
-/

namespace Galley.Markdown

inductive Inline
  | text (text : Text)
  | code (text : Text)
  | math (display : Bool) (source : Text)
  | html (text : Text)
  | note (label : Text)
  | softBreak
  | hardBreak
  /-- A run of delimiters, and whether it can open and close an element. -/
  | run (delimiter : Char) (length : Nat) (opens closes : Bool)
  /-- An element with others in it. -/
  | span (tag : Tag) (children : List Inline)
deriving Repr

namespace Inline

mutual

def events : Inline → List Event
  | .text s => [.text s]
  | .code s => [.code s]
  | .math display source => [if display then .displayMath source else .inlineMath source]
  | .html s => [.inlineHtml s]
  | .note label => [.footnoteReference label]
  | .softBreak => [.softBreak]
  | .hardBreak => [.hardBreak]
  | .run delimiter length _ _ => [.text (List.replicate length delimiter)]
  | .span tag children => .start tag :: listEvents children ++ [.stop tag.toEnd]

def listEvents : List Inline → List Event
  | [] => []
  | element :: elements => element.events ++ listEvents elements

end

end Inline

end Galley.Markdown
