import Galley.Toml.Quoted
import Galley.Toml.Scalar

/-!
# TOML documents

A document is a sequence of lines: a key with its value, a header that opens a table, or nothing
but a comment. Keys belong to the table opened last. The functions return what they read and the
text behind it, or nothing if the text is malformed.
-/

namespace Galley.Toml

/-! ## Between values -/

/-- What follows the rest of a comment: the end of its line, or of the text. -/
def afterComment? : Text → Option Text
  | [] => some []
  | '\n' :: s => some ('\n' :: s)
  | '\r' :: '\n' :: s => some ('\r' :: '\n' :: s)
  | c :: s => if isPlain c then afterComment? s else none

/-- What follows a line on which nothing but blanks and a comment are left. -/
def afterLine? (s : Text) : Option Text :=
  let rest? := match s.dropWhile isBlank with
    | '#' :: s => afterComment? s
    | s => some s
  rest?.bind fun s => if s.isEmpty then some [] else afterBreak? s

/-- What follows blanks, line breaks and comments; `comment` tells whether the text begins inside
a comment. -/
def afterGap? : Bool → Text → Option Text
  | _, [] => some []
  | _, '\n' :: s => afterGap? false s
  | _, '\r' :: '\n' :: s => afterGap? false s
  | true, c :: s => if isPlain c then afterGap? true s else none
  | false, c :: s =>
    if isBlank c then afterGap? false s
    else if c = '#' then afterGap? true s
    else some (c :: s)

/-! ## Keys -/

def isKeyChar (c : Char) : Bool := c.isAlphanum || c = '_' || c = '-'

/-- One part of a dotted key. -/
def keyPart? (s : Text) : Option (Text × Text) :=
  match s with
  | '"' :: s => Quoted.line? '"' (s.length + 1) s
  | '\'' :: s => Quoted.line? '\'' (s.length + 1) s
  | s =>
    let key := s.takeWhile isKeyChar
    if key.isEmpty then none else some (key, s.drop key.length)

/-- A key: its first part, and those behind dots, with the blanks around each. -/
def key? : Nat → Text → Option ((Text × List Text) × Text)
  | 0, _ => none
  | fuel + 1, s => do
    let (part, s) ← keyPart? (s.dropWhile isBlank)
    match s.dropWhile isBlank with
    | '.' :: s =>
      let ((next, path), s) ← key? fuel s
      some ((part, next :: path), s)
    | s => some ((part, []), s)

/-! ## Values -/

mutual

/-- The value at the start of a text, with brackets and braces nested at most `depth` deep. -/
def value? : Nat → Nat → Text → Option (Value × Text)
  | 0, _, _ => none
  | fuel + 1, depth, s =>
    match s, depth with
    | '[' :: s, depth + 1 => (items? fuel depth s).map fun (items, s) => (.array items, s)
    | '\x7b' :: s, depth + 1 =>
      (entries? fuel depth [] s).map fun (entries, s) => (.table .inline entries, s)
    | '"' :: s, _ => (string? '"' s).map fun (t, s) => (.string t, s)
    | '\'' :: s, _ => (string? '\'' s).map fun (t, s) => (.string t, s)
    | s, _ => (scalar? (word s)).map (·, s.drop (word s).length)

/-- The items of an array up to its closing bracket. -/
def items? : Nat → Nat → Text → Option (List Value × Text)
  | 0, _, _ => none
  | fuel + 1, depth, s => do
    match ← afterGap? false s with
    | ']' :: s => some ([], s)
    | s =>
      let (value, s) ← value? fuel depth s
      match ← afterGap? false s with
      | ',' :: s => (items? fuel depth s).map fun (values, s) => (value :: values, s)
      | ']' :: s => some ([value], s)
      | _ => none

/-- The entries of a table between braces, in addition to given ones. -/
def entries? : Nat → Nat → Entries → Text → Option (Entries × Text)
  | 0, _, _, _ => none
  | fuel + 1, depth, entries, s => do
    match ← afterGap? false s with
    | '\x7d' :: s => some (entries, s)
    | s =>
      let ((key, path), s) ← key? fuel s
      let s ← Text.dropPrefix? "=" s
      let (value, s) ← value? fuel depth (s.dropWhile isBlank)
      let entries ← entries.define? value key path
      match ← afterGap? false s with
      | ',' :: s => entries? fuel depth entries s
      | '\x7d' :: s => some (entries, s)
      | _ => none

end

/-- How deep brackets and braces can be nested. -/
def depthLimit : Nat := 80

/-! ## Lines -/

/-- A document up to some line. -/
structure Draft where
  root : Entries := []
  /-- The keys of the table opened last. -/
  opened : List Text := []
deriving Repr

/-- Reads a line that is not empty, up to a comment at its end. -/
def Draft.line? (draft : Draft) (s : Text) : Option (Draft × Text) := do
  let fuel := 2 * s.length + 2
  match s with
  | '[' :: '[' :: s =>
    let ((key, path), s) ← key? fuel s
    let s ← Text.dropPrefix? "]]" s
    let (path, key) := ((key :: path).dropLast, (key :: path).getLast (by simp))
    some ({ root := ← draft.root.within? (·.openItem? key) path, opened := path ++ [key] }, s)
  | '[' :: s =>
    let ((key, path), s) ← key? fuel s
    let s ← Text.dropPrefix? "]" s
    let (path, key) := ((key :: path).dropLast, (key :: path).getLast (by simp))
    some ({ root := ← draft.root.within? (·.openTable? key) path, opened := path ++ [key] }, s)
  | s =>
    let ((key, path), s) ← key? fuel s
    let s ← Text.dropPrefix? "=" s
    let (value, s) ← value? fuel depthLimit (s.dropWhile isBlank)
    some ({ draft with root := ← draft.root.within? (·.define? value key path) draft.opened }, s)

def Draft.lines? : Nat → Draft → Text → Option Entries
  | 0, _, _ => none
  | fuel + 1, draft, s =>
    match s.dropWhile isBlank with
    | [] => some draft.root
    | c :: s =>
      if c = '#' ∨ c = '\n' ∨ c = '\r' then (afterLine? (c :: s)).bind (lines? fuel draft)
      else do
        let (draft, s) ← draft.line? (c :: s)
        lines? fuel draft (← afterLine? s)

/-- The entries of a document. A byte order mark at its start does not count. -/
def parse? (s : Text) : Option Entries :=
  let s := (Text.dropPrefix? "\ufeff" s).getD s
  Draft.lines? (s.length + 1) {} s

end Galley.Toml
