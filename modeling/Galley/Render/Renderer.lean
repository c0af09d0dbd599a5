import Galley.Render.Footnotes
import Galley.Render.Headings
import Galley.Toc.Marker
import Galley.Toc.Outline

/-!
# The renderer

Rendering is a fold of one step over the events of a document. What a step has to remember is the
state `Renderer`: the HTML written so far, and what is collected aside until its end is seen (a
code block, an image, a heading, a footnote definition). The table of contents needs every
heading, so a marker first leaves a placeholder; finishing the document replaces it.
-/

namespace Galley.Render

open Html (escape lineAttr)
open Markdown (AlertKind ColumnAlignment Event Located Tag TagEnd)

/-- A code block whose end has not been seen. -/
structure OpenCode where
  language : Option Text := none
  line : Option Nat := none
  content : Text := []
deriving DecidableEq, Repr

/-- An image whose end has not been seen; the text inside it becomes its `alt`. -/
structure OpenImage where
  url : Text
  title : Text
  alt : Text := []
deriving DecidableEq, Repr

/-- Where in a table the next cell stands. -/
structure TableCursor where
  inHead : Bool := false
  alignments : List ColumnAlignment := []
  column : Nat := 0
deriving DecidableEq, Repr

def TableCursor.style (cursor : TableCursor) : Text :=
  match cursor.alignments[cursor.column]? with
  | some .left => " style=\"text-align:left\""
  | some .center => " style=\"text-align:center\""
  | some .right => " style=\"text-align:right\""
  | some .none | none => []

/-- What rendering keeps between two events. -/
structure Renderer where
  /-- The HTML written so far, or that of the footnote definition being read. -/
  output : Text := []
  code : Option OpenCode := none
  table : TableCursor := {}
  image : Option OpenImage := none
  headings : Headings := {}
  footnotes : Footnotes := {}
  /-- What was written before the footnote definition being read. -/
  saved : Option Text := none
  /-- The kinds of the open block quotes, innermost first. -/
  quotes : List (Option AlertKind) := []
  inMetadata : Bool := false
  /-- The markers seen so far, one for each placeholder. -/
  markers : List Toc.Marker := []
deriving DecidableEq, Repr

namespace Renderer

def write (r : Renderer) (html : Text) : Renderer := { r with output := r.output ++ html }

/-- Writes HTML that belongs inside the open heading, if there is one. -/
def writeInline (r : Renderer) (html : Text) : Renderer :=
  if r.headings.isOpen then { r with headings := r.headings.pushHtml html } else r.write html

/-- Adds text to the open heading, if there is one, without writing it. -/
def noteText (r : Renderer) (text : Text) : Renderer :=
  { r with headings := r.headings.pushText text }

/-- What stands for the table of contents of a marker until every heading is known. -/
def placeholder (index : Nat) : Text := "<!--mdv-toc-placeholder-" ++ Text.ofNat index ++ "-->"

/-! ## Elements -/

/-- The opening tag of an ordered or bullet list. -/
def listStart (start : Option Nat) (attrs : Text) : Text :=
  match start with
  | none => "<ul" ++ attrs ++ ">\n"
  | some 1 => "<ol" ++ attrs ++ ">\n"
  | some n => "<ol start=\"" ++ Text.ofNat n ++ "\"" ++ attrs ++ ">\n"

def cellStart (cursor : TableCursor) : Text :=
  (if cursor.inHead then "<th" else "<td") ++ cursor.style ++ ">"

/-- The element of a completed heading. -/
def headingHtml (heading : Heading) : Text :=
  "<h" ++ Text.ofNat heading.level ++ " id=\"" ++ escape heading.id ++ "\"" ++ lineAttr heading.line
    ++ ">" ++ Text.trim heading.html ++ "</h" ++ Text.ofNat heading.level ++ ">\n"

/-- The start of an element, at a source line if one is known. -/
def startTag (r : Renderer) (tag : Tag) (line : Option Nat) : Renderer :=
  let attrs := lineAttr line
  match tag with
  | .paragraph => r.write ("<p" ++ attrs ++ ">")
  | .heading level id => { r with headings := r.headings.start level id line }
  | .blockQuote none =>
    { r.write (Html.blockQuoteStart attrs) with quotes := none :: r.quotes }
  | .blockQuote (some kind) =>
    { r.write (Html.alertStart kind attrs) with quotes := some kind :: r.quotes }
  | .codeBlock info => { r with code := some { language := info.bind Text.firstWord?, line } }
  | .list start => r.write (listStart start attrs)
  | .item => r.write ("<li" ++ attrs ++ ">")
  | .footnoteDefinition label =>
    { r with
      footnotes := r.footnotes.beginDefinition label, saved := some r.output, output := [] }
  | .metadata => { r with inMetadata := true }
  | .htmlBlock => r
  | .definitionList => r.write ("<dl" ++ attrs ++ ">\n")
  | .definitionTitle => r.write "<dt>"
  | .definition => r.write "<dd>"
  | .table alignments =>
    { r.write ("<table" ++ attrs ++ ">\n") with table := { alignments } }
  | .tableHead =>
    { r.write "<thead>\n<tr>\n" with table := { r.table with inHead := true, column := 0 } }
  | .tableRow => { r.write "<tr>\n" with table := { r.table with column := 0 } }
  | .tableCell => r.write (cellStart r.table)
  | .emphasis => r.writeInline "<em>"
  | .strong => r.writeInline "<strong>"
  | .strikethrough => r.writeInline "<del>"
  | .superscript => r.writeInline "<sup>"
  | .subscript => r.writeInline "<sub>"
  | .link url title =>
    r.writeInline ("<a href=\"" ++ escape url ++ "\"" ++ Html.titleAttr title ++ ">")
  | .image url title => { r with image := some { url, title } }

/-- The end of a heading; without an open heading, nothing. -/
def endHeading (r : Renderer) : Renderer :=
  match r.headings.complete with
  | none => r
  | some (heading, headings) => { r.write (headingHtml heading) with headings }

/-- The end of a block quote is that of the innermost open one. -/
def endQuote (r : Renderer) : Renderer :=
  match r.quotes with
  | some _ :: quotes => { r.write Html.alertEnd with quotes }
  | none :: quotes => { r.write Html.blockQuoteEnd with quotes }
  | [] => r.write Html.blockQuoteEnd

/-- The end of a code block writes the whole block. -/
def endCode (r : Renderer) : Renderer :=
  let code := r.code.getD {}
  { r.write (Html.codeBlock code.language code.content (lineAttr code.line)) with code := none }

/-- The end of a footnote definition puts its HTML aside and goes on where it started. -/
def endFootnote (r : Renderer) : Renderer :=
  if r.footnotes.current.isSome then
    match r.saved with
    | some output =>
      { r with output, saved := none, footnotes := r.footnotes.endDefinition r.output }
    | none => { r with footnotes := r.footnotes.endDefinition [] }
  else r

/-- The end of an image writes the whole image; without an open image, nothing. -/
def endImage (r : Renderer) : Renderer :=
  match r.image with
  | none => r
  | some image =>
    { r.writeInline (Html.image image.url image.alt image.title) with image := none }

def endTag (r : Renderer) : TagEnd → Renderer
  | .paragraph => r.write "</p>\n"
  | .heading _ => r.endHeading
  | .blockQuote _ => r.endQuote
  | .codeBlock => r.endCode
  | .list ordered => r.write (if ordered then "</ol>\n" else "</ul>\n")
  | .item => r.write "</li>\n"
  | .footnoteDefinition => r.endFootnote
  | .metadata => { r with inMetadata := false }
  | .htmlBlock => r
  | .definitionList => r.write "</dl>\n"
  | .definitionTitle => r.write "</dt>\n"
  | .definition => r.write "</dd>\n"
  | .table => r.write "</tbody>\n</table>\n"
  | .tableHead =>
    { r.write "</tr>\n</thead>\n<tbody>\n" with table := { r.table with inHead := false } }
  | .tableRow => r.write "</tr>\n"
  | .tableCell =>
    { r.write (if r.table.inHead then "</th>\n" else "</td>\n") with
      table := { r.table with column := r.table.column + 1 } }
  | .emphasis => r.writeInline "</em>"
  | .strong => r.writeInline "</strong>"
  | .strikethrough => r.writeInline "</del>"
  | .superscript => r.writeInline "</sup>"
  | .subscript => r.writeInline "</sub>"
  | .link => r.writeInline "</a>"
  | .image => r.endImage

/-! ## The other events -/

/-- Text goes to the innermost place that collects it: the code block, the image, the heading or
the page. Metadata is not shown. -/
def text (r : Renderer) (text : Text) : Renderer :=
  if r.inMetadata then r
  else
    match r.code, r.image with
    | some code, _ => { r with code := some { code with content := code.content ++ text } }
    | none, some image => { r with image := some { image with alt := image.alt ++ text } }
    | none, none => (r.noteText text).writeInline (escape text)

/-- Raw HTML, unless it is the comment of a marker, which leaves a placeholder. -/
def rawHtml (r : Renderer) (html : Text) : Renderer :=
  match Toc.Marker.ofComment? html with
  | none => r.writeInline html
  | some marker =>
    { r.write (placeholder r.markers.length) with markers := r.markers ++ [marker] }

def footnoteReference (r : Renderer) (label : Text) : Renderer :=
  let r := { r with footnotes := r.footnotes.refer label }
  r.writeInline (Footnotes.referenceHtml (r.footnotes.number label))

/-- The end of a source line counts as a space in the text of a heading. -/
def softBreak (r : Renderer) : Renderer := (r.noteText " ").writeInline "\n"

/-- The step of an event that starts at the source line `line`, if one is known. -/
def step (r : Renderer) (event : Event) (line : Option Nat) : Renderer :=
  match event with
  | .start tag => r.startTag tag line
  | .stop tag => r.endTag tag
  | .text text => r.text text
  | .code code => (r.noteText code).writeInline ("<code>" ++ escape code ++ "</code>")
  | .html html | .inlineHtml html => r.rawHtml html
  | .inlineMath source => (r.noteText source).writeInline (Html.math source false)
  | .displayMath source => (r.noteText source).writeInline (Html.math source true)
  | .footnoteReference label => r.footnoteReference label
  | .softBreak => r.softBreak
  | .hardBreak => r.write Html.hardBreak
  | .rule => r.write Html.rule
  | .taskMarker checked => r.write (Html.taskMarker checked)

/-! ## Documents -/

structure Page where
  html : Text
  toc : List Toc.Entry
deriving DecidableEq, Repr

/-- Replaces the placeholders from `index` on, one for each marker. -/
def fillMarkers (toc : List Toc.Entry) (options : Toc.Options) (index : Nat) :
    List Toc.Marker → Text → Text
  | [], html => html
  | marker :: markers, html =>
    fillMarkers toc options (index + 1) markers
      (Text.replace (placeholder index) (Toc.render toc options marker.title) html)

/-- Ends a document. What is still open stays so for the next one. -/
def finish (r : Renderer) (options : Toc.Options) : Page × Renderer :=
  let html := r.output ++ r.footnotes.sectionHtml
  let toc := r.headings.toc
  ({ html := fillMarkers toc options 0 r.markers html, toc },
    { r with output := [], headings := { r.headings with toc := [] }, markers := [] })

/-- The state after events at known lines. -/
def steps (r : Renderer) (events : List (Event × Option Nat)) : Renderer :=
  events.foldl (fun r e => r.step e.1 e.2) r

/-- Renders a document without source lines. -/
def render (r : Renderer) (options : Toc.Options) (events : List Event) : Page × Renderer :=
  (r.steps (events.map (·, none))).finish options

/-- Renders a document whose events have source offsets; `lineOf?`, if given, maps an offset to
its line. -/
def renderLocated (r : Renderer) (options : Toc.Options) (lineOf? : Option (Nat → Nat))
    (events : List Located) : Page × Renderer :=
  (r.steps (events.map fun e => (e.event, lineOf?.map (· e.offset)))).finish options

end Renderer

end Galley.Render
