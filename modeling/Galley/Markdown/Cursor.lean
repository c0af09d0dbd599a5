import Galley.Markdown.Line

/-!
# Cursors

A cursor stands somewhere in a line while the markers and the indentation of the line are read.
Indentation is counted in columns. A tab reaches to the next multiple of four columns, and a part
of it can be used up, so a cursor knows how many columns of the last tab are left.
-/

namespace Galley.Markdown

/-- A place in a line. -/
structure Cursor where
  /-- The text from here on, past the end of the line. -/
  rest : Text
  /-- The byte offset of the rest in the document. -/
  offset : Nat
  /-- The number of characters since the last tab, or since the start of the line. -/
  column : Nat := 0
  /-- The columns of the last tab that are not used up. -/
  pending : Nat := 0
deriving DecidableEq, Repr

namespace Cursor

/-- The cursor at the start of a line. -/
def ofLine (rest : Text) (offset : Nat) : Cursor := { rest, offset }

/-- The cursor `n` characters further. -/
def skip (c : Cursor) (n : Nat) : Cursor :=
  { c with
    rest := c.rest.drop n
    offset := c.offset + Text.byteLength (c.rest.take n)
    column := c.column + n }

/-- A new line starts where the cursor stands. -/
def newLine (c : Cursor) : Cursor := ofLine c.rest c.offset

/-- The cursor at a suffix of its rest, as the start of a line. -/
def jumpTo (c : Cursor) (rest : Text) : Cursor := (c.skip (c.rest.length - rest.length)).newLine

/-- Uses up columns of blanks, in at most `fuel` steps; the number of columns that are missing. -/
def useColumns : Nat → Nat → Cursor → Nat × Cursor
  | 0, missing, c => (missing, c)
  | fuel + 1, missing, c =>
    if missing = 0 then (0, c)
    else if c.pending ≠ 0 then
      let n := min c.pending missing
      useColumns fuel (missing - n) { c with pending := c.pending - n }
    else
      match c.rest with
      | ' ' :: _ => useColumns fuel (missing - 1) (c.skip 1)
      | '\t' :: _ =>
        useColumns fuel missing { c.skip 1 with column := 0, pending := 4 - c.column % 4 }
      | _ => (missing, c)

/-- Uses up to `n` columns of blanks; the number of columns that were there. -/
def indent (c : Cursor) (n : Nat) : Nat × Cursor :=
  let (missing, c) := useColumns (2 * n) n c
  (n - missing, c)

/-- The cursor behind all spaces and tabs. -/
def skipBlanks (c : Cursor) : Cursor :=
  { c.skip (c.rest.takeWhile fun x => x = ' ' || x = '\t').length with pending := 0 }

def atEnd (c : Cursor) : Bool := (afterEnding? c.rest).isSome

end Cursor

end Galley.Markdown
