import Galley.Text.Blank

/-!
# Slides

A presentation is cut at its horizontal rules. Each piece becomes a numbered slide; a slide that
begins with a top heading is a title slide. Blanks before the first rule are no slide.
-/

namespace Galley.Document

/-- A piece of a presentation between two rules. -/
structure Slide where
  html : Text
  /-- Whether it begins with a top heading. -/
  title : Bool
deriving DecidableEq, Repr

namespace Slide

/-- The rule that separates slides. -/
def separator : Text := "<hr />"

def ofHtml (html : Text) : Slide := ⟨html, Text.hasPrefix "<h1" (Text.trimStart html)⟩

/-- The pieces of a page; a page without a rule has none. -/
def split (html : Text) : List Slide :=
  if Text.hasInfix separator html then (Text.splitOn separator html).map ofHtml else []

def wrapped (slide : Slide) (number : Nat) : Text :=
  let n := Text.ofNat number
  "<!-- Presentation slide " ++ n ++ " --> <div class='slide_p" ++ n
    ++ (if slide.title then " slide_type_title slide'><div class='slide_body slide_title'>"
      else " slide'><div class='slide_body'>" : Text)
    ++ slide.html ++ "</div></div>\n"

/-- Slides with consecutive numbers, the first of which is `number`. -/
def wrapAll (number : Nat) : List Slide → Text
  | [] => []
  | slide :: slides => slide.wrapped number ++ wrapAll (number + 1) slides

/-- The slides of a page, one after the other; a page without a rule is left as it is. -/
def render (html : Text) : Text :=
  match split html with
  | [] => html
  | first :: slides =>
    if (Text.trim first.html).isEmpty then first.html ++ wrapAll 1 slides
    else wrapAll 1 (first :: slides)

end Slide

/-- Moves each link back from a footnote into the last paragraph of the footnote. -/
def joinBackReferences (html : Text) : Text :=
  if Text.hasInfix "footnote-" html then
    Text.replace "class=\"footnote-backref\">&#8617;</a>"
      "class=\"footnote-backref\"> &#8617;</a></p>"
      (Text.replace "</p>\n<a href=\"#fnref-" "<a href=\"#fnref-" html)
  else html

end Galley.Document
