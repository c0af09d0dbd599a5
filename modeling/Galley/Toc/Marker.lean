import Galley.Fence
import Galley.Html.Escape

/-!
# Table of contents markers

A line `[TOC]` or `[TOC]: # 'title'` asks for a table of contents. Before a document is parsed,
each such line outside code fences is rewritten into a comment that passes through the parser
as raw HTML and carries the title, already escaped. Rewriting keeps the line endings.
-/

namespace Galley.Toc

/-- A request for a table of contents, with a title of its own or without. -/
structure Marker where
  title : Option Text
deriving DecidableEq, Repr

namespace Marker

/-- A title that is empty counts as none. -/
def ofTitle (title : Text) : Marker := ⟨if title.isEmpty then none else some title⟩

def ofLine? (line : Text) : Option Marker :=
  let s := Text.trim line
  if s = ("[TOC]" : Text) then some ⟨none⟩
  else do
    let rest ← Text.dropPrefix? "[TOC]:" s
    let title ← Text.dropPrefix? "#" (Text.trimStart rest)
    some (ofTitle (Text.trim (Text.unquote (Text.trim title))))

def commentStart : Text := "<!-- mdv-toc"

def commentEnd : Text := "-->"

/-- The comment that stands for a marker. -/
def comment (marker : Marker) : Text :=
  match marker.title with
  | none => commentStart ++ " " ++ commentEnd
  | some title => commentStart ++ ": " ++ Html.escape title ++ " " ++ commentEnd

/-- Reads a comment back; its title stays escaped. -/
def ofComment? (html : Text) : Option Marker := do
  let rest ← Text.dropPrefix? commentStart (Text.trim html)
  let inner ← Text.dropSuffix? commentEnd rest
  let inner := Text.trim inner
  if inner.isEmpty then some ⟨none⟩
  else
    let title ← Text.dropPrefix? ":" inner
    some (ofTitle (Text.trim title))

end Marker

/-! ## Rewriting marker lines -/

/-- What rewriting keeps between two lines: the open fence, and how many markers were found. -/
structure MarkerScan where
  fence : Option Fence := none
  markers : Nat := 0
deriving DecidableEq, Repr

namespace MarkerScan

def isEnding (c : Char) : Bool := c = '\n' || c = '\r'

/-- Rewrites one line, given with its ending. -/
def line (scan : MarkerScan) (segment : Text) : Text × MarkerScan :=
  let content := Text.dropEndWhile isEnding segment
  let ending := segment.drop content.length
  let fence := Fence.afterLine scan.fence content
  if fence.isSome then (segment, { scan with fence })
  else
    match Marker.ofLine? content with
    | none => (segment, { scan with fence })
    | some marker => (marker.comment ++ ending, { fence, markers := scan.markers + 1 })

def lines (scan : MarkerScan) : List Text → Text × MarkerScan
  | [] => ([], scan)
  | segment :: rest =>
    let (out, scan) := scan.line segment
    let (outs, scan) := scan.lines rest
    (out ++ outs, scan)

/-- Rewrites a part of a document. A later part goes on where this one ends. -/
def run (scan : MarkerScan) (text : Text) : Text × MarkerScan := scan.lines (Text.lines text)

end MarkerScan

/-- A document with its marker lines rewritten. -/
def rewriteMarkers (text : Text) : Text := (({} : MarkerScan).run text).1

end Galley.Toc
