import Galley.Html.Element

/-!
# Footnotes

A footnote gets its number when its label first appears, in a reference or in its definition, and
keeps it. The notes stand in the order of their numbers; each knows whether it was referenced and
what its definition says. The section at the end of a page lists the notes that have one.
-/

namespace Galley.Render

/-- What is known of a footnote. -/
structure Note where
  label : Text
  referenced : Bool := false
  body : Option Text := none
deriving DecidableEq, Repr

/-- The notes in the order of their numbers, the first of which is one. -/
structure Footnotes where
  notes : List Note := []
  /-- The label of the definition being read. -/
  current : Option Text := none
deriving DecidableEq, Repr

namespace Footnotes

/-- The number of a label: that of the first note with this label, or the next free one. -/
def number (fs : Footnotes) (label : Text) : Nat := fs.notes.findIdx (·.label = label) + 1

/-- Adds a note to the notes if its label is new. -/
def know (fs : Footnotes) (label : Text) : Footnotes :=
  if fs.notes.any (·.label = label) then fs else { fs with notes := fs.notes ++ [{ label }] }

/-- Changes the first note with this label. -/
def modify (label : Text) (f : Note → Note) : List Note → List Note
  | [] => []
  | note :: notes => if note.label = label then f note :: notes else note :: modify label f notes

def refer (fs : Footnotes) (label : Text) : Footnotes :=
  let fs := fs.know label
  { fs with notes := modify label ({ · with referenced := true }) fs.notes }

def beginDefinition (fs : Footnotes) (label : Text) : Footnotes :=
  { fs.know label with current := some label }

/-- Ends the definition being read; its text is `body`. -/
def endDefinition (fs : Footnotes) (body : Text) : Footnotes :=
  match fs.current with
  | none => fs
  | some label =>
    let fs := { fs.know label with current := none }
    { fs with notes := modify label ({ · with body := some body }) fs.notes }

def referenceHtml (n : Nat) : Text :=
  let n := Text.ofNat n
  "<sup id=\"fnref-" ++ n ++ "\"><a class=\"footnote-ref\" href=\"#fn-" ++ n ++ "\">" ++ n
    ++ "</a></sup>"

/-- The link from a note back to its reference. -/
def backReference (n : Nat) : Text :=
  "<a href=\"#fnref-" ++ Text.ofNat n ++ "\" class=\"footnote-backref\">&#8617;</a>\n"

/-- The item of a note; a note without a definition has none. -/
def Note.item (n : Nat) (note : Note) : Text :=
  match note.body with
  | none => []
  | some body =>
    "<li id=\"fn-" ++ Text.ofNat n ++ "\">\n" ++ body
      ++ (if note.referenced then backReference n else []) ++ "</li>\n"

/-- The items of the notes, the first of which has the number `n`. -/
def items (n : Nat) : List Note → Text
  | [] => []
  | note :: notes => Note.item n note ++ items (n + 1) notes

/-- The section of the notes that have a definition; without any, nothing. -/
def sectionHtml (fs : Footnotes) : Text :=
  if fs.notes.all (·.body.isNone) then []
  else
    "<div class=\"footnotes\">\n<hr class=\"footnotes-sep\" />\n<ol>\n" ++ items 1 fs.notes
      ++ "</ol>\n</div>\n"

end Footnotes

end Galley.Render
