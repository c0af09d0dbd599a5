import Galley.Html.Escape
import Galley.Toc.Entry

/-!
# The list of a table of contents

The entries within the level bounds become nested lists. A heading deeper than the one before it
opens a list inside that heading's item. Otherwise the lists that are deeper than the heading are
closed, down to the outermost; but a heading that lies between an open list and its parent joins
the open list, which from then on counts as a list of that level.
-/

namespace Galley.Toc

open Html (escape)

/-- The end of an inner list and of the item around it. -/
def closeList : Text := "</ul>\n</li>\n"

/-- Closes the lists, innermost first, that an entry of this level does not belong to, and says
which lists are left open. The outermost list always stays. -/
def closeLists (level : Nat) : List Nat → Text × List Nat
  | current :: parent :: rest =>
    if current ≤ level then ([], current :: parent :: rest)
    else if parent < level then ([], level :: parent :: rest)
    else
      let (out, left) := closeLists level (parent :: rest)
      (closeList ++ out, left)
  | left => ([], left)

/-- What is written before an entry of this level, and the lists open afterwards. -/
def openItem (options : Options) (level : Nat) : List Nat → Text × List Nat
  | [] => ("<ul class=\"" ++ escape options.listClass ++ "\">\n", [level])
  | current :: rest =>
    if current < level then ("\n<ul>\n", level :: current :: rest)
    else
      let (out, left) := closeLists level (current :: rest)
      ("</li>\n" ++ out, left)

/-- The link to an entry, in an item that stays open. -/
def Entry.link (entry : Entry) : Text :=
  "<li><a href=\"#" ++ escape entry.id ++ "\">" ++ escape entry.title ++ "</a>"

/-- The items of the entries, inside the lists that are open, with all that closes them. -/
def items (options : Options) (opened : List Nat) : List Entry → Text
  | [] => "</li>\n" ++ (List.replicate (opened.length - 1) closeList).flatten
  | entry :: entries =>
    let (out, opened) := openItem options entry.level opened
    out ++ entry.link ++ items options opened entries

/-- The heading of a table of contents; an empty title has none. -/
def titleLine (title : Text) : Text :=
  if title.isEmpty then [] else "<h1>" ++ title ++ "</h1>\n"

/-- The table of contents of the entries; nothing if none of them lies within the bounds.
`titleHtml`, if given, stands in place of the title of the options and is already escaped. -/
def render (entries : List Entry) (options : Options) (titleHtml : Option Text) : Text :=
  let listed := entries.filter (options.lists ·.level)
  if listed.isEmpty then []
  else
    "<div class=\"" ++ escape options.divClass ++ "\">\n"
      ++ titleLine (titleHtml.getD (escape options.title))
      ++ items options [] listed ++ "</ul>\n</div>\n"

end Galley.Toc
