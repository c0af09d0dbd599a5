import Galley.Document.AutoToc
import Galley.Document.Feature
import Galley.Document.FrontMatter
import Galley.Document.LinkTarget
import Galley.Document.Page
import Galley.Document.Slides
import Galley.LineIndex
import Galley.PathName
import Galley.Render.Renderer

/-!
# Conversion

A document is prepared, parsed, rendered and finished. Preparing detects its features, may insert
a table of contents, reads the front matter, and rewrites the markup; none of the rewriting steps
adds or removes a line. So the lines of the source that is parsed can be mapped back to the lines
of the document.
-/

namespace Galley.Document

/-! ## Rewriting the markup -/

/-- The markup with the tokens that stand for the root of the site and for its attachments. -/
def rewriteSiteTokens (markup : Text) : Text :=
  Text.replace "](@attachment/" "](../attachments/"
    (Text.replace "\x7b\x7b site.baseurl \x7d\x7d" ".." markup)

/-- The text with two spaces before every newline. -/
def breakLines (markup : Text) : Text := Text.replace "\n" "  \n" markup

/-- The markup with a hard break at every newline behind the front matter. -/
def hardLineBreaks (markup : Text) : Text :=
  match MatterBlock.split? markup with
  | some (block, rest) => block ++ breakLines rest
  | none => breakLines markup

/-- The inserted markup as it is parsed. -/
def rewrite (options : Options) (attrs : Attributes) (markup : Text) : Text :=
  let markup := rewriteSiteTokens (Token.substitute attrs markup)
  let markup := if options.newlineIsParagraph then hardLineBreaks markup else markup
  Toc.rewriteMarkers (encodeLinkTargets markup)

/-! ## Preparing a document -/

/-- A document that is ready to be parsed. -/
structure Prepared where
  /-- What is parsed. -/
  source : Text
  /-- The lines of the source that the document does not have. -/
  insertion : Option Insertion
  /-- The items of the shown attributes. -/
  container : Text
  head : Text
  onload : Text
  features : Features
deriving DecidableEq, Repr

/-- Prepares a document with the front matter that `matter` finds in it. -/
def prepareWith (matter : Text → AllowedKeys → Bool → FrontMatter) (options : Options)
    (path : Option Text) (markup : Text) : Prepared :=
  let draft := ({ markup } : Draft).applyFeatures options
  let presentation := draft.features.presentation
  let (inserted, insertion) :=
    options.autoToc.insert draft.markup presentation (path.bind PathName.folderName?)
  let matter := matter markup options.allowedKeys presentation
  { source := rewrite options matter.attributes inserted
    insertion
    container := Token.substitute matter.attributes matter.container
    head := draft.head
    onload := draft.onload
    features := draft.features }

/-- Prepares a document. Its attributes come from the document as it is given. -/
def prepare (options : Options) (path : Option Text) (markup : Text) : Prepared :=
  prepareWith FrontMatter.ofMarkup options path markup

namespace Prepared

/-- The line of the document that a line of the source belongs to. -/
def originalLine (doc : Prepared) (line : Nat) : Nat :=
  match doc.insertion with
  | some insertion => insertion.originalLine line
  | none => line

/-- The line of the document that an offset in the source belongs to. -/
def lineOf (doc : Prepared) (offset : Nat) : Nat :=
  doc.originalLine ((LineIndex.ofText doc.source).lineOf offset)

end Prepared

/-! ## Converting a document -/

/-- The classes of a table of contents. -/
structure TocClasses where
  div : Text := ({} : Toc.Options).divClass
  list : Text := ({} : Toc.Options).listClass
deriving DecidableEq, Repr

/-- How a table of contents is rendered. -/
def Options.tocOptions (options : Options) (classes : TocClasses) : Toc.Options where
  minLevel := options.toc.minLevel
  maxLevel := options.toc.maxLevel
  title := options.toc.title
  divClass := classes.div
  listClass := classes.list

def Options.extensions (options : Options) : Markdown.Extensions :=
  { Markdown.Extensions.all with math := options.math }

namespace Prepared

def html (doc : Prepared) (options : Options) (classes : TocClasses) : Text :=
  let index := LineIndex.ofText doc.source
  let lineOf (offset : Nat) : Nat := doc.originalLine (index.lineOf offset)
  (({} : Render.Renderer).renderLocated (options.tocOptions classes) (some lineOf)
    (Markdown.parse options.extensions doc.source)).1.html

/-- Finishes a document: the container of its attributes stands before its body or its slides. -/
def finish (doc : Prepared) (options : Options) (classes : TocClasses) : Converted :=
  let html := joinBackReferences (doc.html options classes)
  let html := if doc.features.presentation then Slide.render html else html
  { body := FrontMatter.wrap doc.container ++ html, head := doc.head, onload := doc.onload }

end Prepared

def convert (options : Options) (classes : TocClasses) (path : Option Text) (markup : Text) :
    Converted :=
  (prepare options path markup).finish options classes

end Galley.Document
