import Galley.Markdown.Event
import Galley.Markdown.Line

/-!
# Tables

A table begins with a line of cells followed by a line of dashes, which gives the alignment of
each column. Cells are separated by pipes; a pipe behind a backslash belongs to its cell.
-/

namespace Galley.Markdown.Table

/-! ## The line under the head -/

/-- What is known of a line of dashes while it is read. -/
structure Delimiters where
  columns : List ColumnAlignment := []
  current : ColumnAlignment := .none
  atStart : Bool := true
  sawPipe : Bool := false
  sawDash : Bool := false
  dashInColumn : Bool := false
deriving DecidableEq, Repr

namespace Delimiters

/-- Reads a colon: on the left of the dashes or on the right. -/
def colon (d : Delimiters) : Delimiters :=
  let current :=
    match d.atStart, d.current with
    | true, .none => .left
    | false, .left => .center
    | false, .none => .right
    | _, current => current
  { d with current, atStart := false }

/-- Reads the rest of the line; some characters cannot be in it, and a column has a dash. -/
def read (d : Delimiters) : Text → Option Delimiters
  | [] => some d
  | ' ' :: s => d.read s
  | ':' :: s => d.colon.read s
  | '-' :: s => { d with atStart := false, sawDash := true, dashInColumn := true }.read s
  | '|' :: s =>
    if d.dashInColumn then
      { d with
        columns := d.columns ++ [d.current]
        current := .none
        atStart := true
        sawPipe := true
        dashInColumn := false }.read s
    else none
  | _ => none

end Delimiters

/-- The alignments that a line of dashes gives. -/
def alignments? (s : Text) : Option (List ColumnAlignment) := do
  let line := restOfLine s
  let indent := runLength ' ' line
  let (opened, line) :=
    match line.drop indent with
    | '|' :: line => (true, line)
    | line => (false, line)
  let d ← ({ sawPipe := opened } : Delimiters).read line
  let columns := if d.atStart then d.columns else d.columns ++ [d.current]
  if indent ≤ 3 && d.sawPipe && d.sawDash then some columns else none

/-! ## Cells -/

/-- A cell up to the next pipe that has no backslash before it, and what follows the cell. -/
def cutCell (escaped : Bool) : Text → Text × Text
  | [] => ([], [])
  | c :: s =>
    if c = '|' && !escaped then ([], c :: s)
    else
      let (cell, rest) := cutCell (c = '\\') s
      (c :: cell, rest)

def cutCells : Nat → Text → List Text
  | 0, _ => []
  | fuel + 1, line =>
    let line := (Text.dropPrefix? "|" line).getD line
    let line := line.dropWhile isGap
    if line.isEmpty then []
    else
      let (cell, rest) := cutCell false line
      Text.replace "\\|" "|" cell :: cutCells fuel rest

/-- The cells of a line, without the backslashes before pipes. -/
def cells (line : Text) : List Text := cutCells (line.length + 1) line

/-- The number of pipes that separate cells, in a line behind a backslash if `escaped` holds. -/
def pipes (escaped : Bool) : Text → Nat
  | [] => 0
  | c :: s => pipes (c = '\\') s + if c = '|' && !escaped then 1 else 0

/-- The number of cells of a head. A pipe at either end of the line separates nothing. -/
def headCells (line : Text) : Nat :=
  let opened := (line.dropWhile isGap).head? = some '|'
  let closed :=
    match (Text.dropEndWhile isGap line).reverse with
    | '|' :: '\\' :: _ => false
    | '|' :: _ => true
    | _ => false
  pipes false line + 1 - (if opened then 1 else 0) - (if closed then 1 else 0)

/-- Cells for `n` columns: missing ones are empty, and more than that are dropped. -/
def fit (n : Nat) (cells : List Text) : List Text :=
  cells.take n ++ List.replicate (n - cells.length) []

end Galley.Markdown.Table
