import Galley.Html.Escape
import Galley.Markdown.Event

/-!
# Elements

The HTML of the elements whose markup the preview page depends on: class names are what its
scripts look for. An `attrs` argument is a run of written attributes, each with its leading
space, for the opening tag.
-/

namespace Galley.Html

open Markdown (AlertKind)

/-- The attribute that names the source line of a block, if the line is known. -/
def lineAttr : Option Nat → Text
  | none => []
  | some n => " line=\"" ++ Text.ofNat n ++ "\""

/-- The title attribute; an empty title is left out. -/
def titleAttr (title : Text) : Text :=
  if title.isEmpty then [] else " title=\"" ++ escape title ++ "\""

/-- A code block, with a language class if the language is known. -/
def codeBlock (language : Option Text) (content attrs : Text) : Text :=
  match language with
  | none => "<pre" ++ attrs ++ "><code>" ++ escape content ++ "</code></pre>\n"
  | some lang =>
    "<pre" ++ attrs ++ "><code class=\"language-" ++ escape lang ++ "\">" ++ escape content
      ++ "</code></pre>\n"

/-- The start of an ordinary block quote. -/
def blockQuoteStart (attrs : Text) : Text := "<blockquote" ++ attrs ++ ">\n"

def blockQuoteEnd : Text := "</blockquote>\n"

def alertClass : AlertKind → Text
  | .note => "note"
  | .tip => "tip"
  | .important => "important"
  | .warning => "warning"
  | .caution => "caution"

def alertTitle : AlertKind → Text
  | .note => "Note"
  | .tip => "Tip"
  | .important => "Important"
  | .warning => "Warning"
  | .caution => "Caution"

/-- The start of an alert, with its title. -/
def alertStart (kind : AlertKind) (attrs : Text) : Text :=
  "<div class=\"alert alert-" ++ alertClass kind ++ "\"" ++ attrs
    ++ "><p class=\"alert-title\">" ++ alertTitle kind ++ "</p>\n"

def alertEnd : Text := "</div>\n"

def image (src alt title : Text) : Text :=
  "<img src=\"" ++ escape src ++ "\"" ++ titleAttr title ++ " alt=\"" ++ escape alt ++ "\" />"

/-- A formula, within the text or on its own. -/
def math (source : Text) (display : Bool) : Text :=
  if display then "<div class=\"katex katex-display\">" ++ escape source ++ "</div>"
  else "<span class=\"katex\">" ++ escape source ++ "</span>"

def hardBreak : Text := "<br />\n"

def rule : Text := "<hr />\n"

/-- The box of a task. -/
def taskMarker (checked : Bool) : Text :=
  if checked then "<input type=\"checkbox\" checked disabled> "
  else "<input type=\"checkbox\" disabled> "

end Galley.Html
