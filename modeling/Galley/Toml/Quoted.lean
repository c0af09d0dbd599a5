import Galley.Number.Numeral

/-!
# TOML strings

A string in double quotes has escapes, one in single quotes has none. Between three quotes a
string can go over several lines; a line break just behind the opening quotes does not count, and
up to two quotes can stand right before the closing ones. The functions return what a string says
and the text behind it. Each loop takes as fuel a number above the length of the text.
-/

namespace Galley.Toml

def isBlank (c : Char) : Bool := c = ' ' || c = '\t'

/-- Whether `c` may stand in a comment or a string: no control character but the tab. -/
def isPlain (c : Char) : Bool := c = '\t' || (' ' ≤ c && c ≠ '\x7f')

/-- What follows the line break at the start of a text. -/
def afterBreak? : Text → Option Text
  | '\n' :: s => some s
  | '\r' :: '\n' :: s => some s
  | _ => none

namespace Quoted

/-- What a letter behind a backslash stands for. -/
def escapeLetter? : Char → Option Char
  | 'b' => some '\x08'
  | 't' => some '\t'
  | 'n' => some '\n'
  | 'f' => some '\x0c'
  | 'r' => some '\r'
  | 'e' => some '\x1b'
  | '"' => some '"'
  | '\\' => some '\\'
  | _ => none

/-- How many hexadecimal digits follow a letter behind a backslash. -/
def escapeWidth? : Char → Option Nat
  | 'x' => some 2
  | 'u' => some 4
  | 'U' => some 8
  | _ => none

/-- The character of an escape without its backslash, and what follows it. -/
def escape? : Text → Option (Char × Text)
  | [] => none
  | c :: s =>
    match escapeWidth? c with
    | none => (escapeLetter? c).map (·, s)
    | some width => (Numeral.codePoint? width s).map (·, s.drop width)

def add (c : Char) (string : Text × Text) : Text × Text := (c :: string.1, string.2)

/-- A string on one line, from behind its opening quote. -/
def line? (quote : Char) : Nat → Text → Option (Text × Text)
  | 0, _ => none
  | _, [] => none
  | fuel + 1, c :: s =>
    if c = quote then some ([], s)
    else if c = '\\' ∧ quote = '"' then
      (escape? s).bind fun (c, s) => (line? quote fuel s).map (add c)
    else if isPlain c then (line? quote fuel s).map (add c)
    else none

/-- What follows the blanks and line breaks at the start of a text. -/
def afterSpace : Text → Text
  | '\r' :: '\n' :: s => afterSpace s
  | c :: s => if isBlank c || c = '\n' then afterSpace s else c :: s
  | [] => []

/-- What follows a backslash at the end of a line, with the space at the start of the lines behind
it. -/
def afterJoin? (s : Text) : Option Text := (afterBreak? (s.dropWhile isBlank)).map afterSpace

/-- A string on several lines, from behind its opening quotes. -/
def lines? (quote : Char) : Nat → Text → Option (Text × Text)
  | 0, _ => none
  | fuel + 1, s =>
    let run := min (s.takeWhile (· = quote)).length 5
    if 3 ≤ run then some (List.replicate (run - 3) quote, s.drop run)
    else
      match s with
      | [] => none
      | '\r' :: '\n' :: s => (lines? quote fuel s).map fun string => add '\r' (add '\n' string)
      | c :: s =>
        if c = '\\' ∧ quote = '"' then
          match afterJoin? s with
          | some s => lines? quote fuel s
          | none => (escape? s).bind fun (c, s) => (lines? quote fuel s).map (add c)
        else if c = '\n' ∨ isPlain c then (lines? quote fuel s).map (add c)
        else none

end Quoted

/-- The string at the start of a text, from behind its first quote. -/
def string? (quote : Char) (s : Text) : Option (Text × Text) :=
  match Text.dropPrefix? [quote, quote] s with
  | some inner => Quoted.lines? quote (s.length + 1) ((afterBreak? inner).getD inner)
  | none => Quoted.line? quote (s.length + 1) s

end Galley.Toml
