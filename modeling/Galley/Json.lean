import Galley.Text

/-!
# JSON

JSON texts as they are printed for people: two spaces for each level of nesting, one item or field
on a line, and nothing but quotes, backslashes and control characters escaped.
-/

namespace Galley

/-- A JSON value without numbers. -/
inductive Json
  | bool (b : Bool)
  | string (s : Text)
  | array (items : List Json)
  | object (fields : List (Text × Json))
deriving Repr

namespace Json

/-! ## Strings -/

/-- The two hexadecimal digits of a number below 256. -/
def hexByte (n : Nat) : Text := [Nat.digitChar (n / 16), Nat.digitChar (n % 16)]

def escapeChar (c : Char) : Text :=
  match c with
  | '"' => "\\\""
  | '\\' => "\\\\"
  | '\x08' => "\\b"
  | '\x0c' => "\\f"
  | '\n' => "\\n"
  | '\r' => "\\r"
  | '\t' => "\\t"
  | c => if c < ' ' then "\\u00" ++ hexByte c.toNat else [c]

/-- A string between its quotes. -/
def quoted (s : Text) : Text := '"' :: s.flatMap escapeChar ++ "\""

/-! ## Values -/

/-- The start of a line inside `depth` brackets. -/
def newLine (depth : Nat) : Text := '\n' :: List.replicate (2 * depth) ' '

/-- Lines between brackets, which lie inside `depth` others. -/
def between (left right : Char) (depth : Nat) (lines : List Text) : Text :=
  if lines.isEmpty then [left, right]
  else left :: newLine (depth + 1) ++ Text.joinWith (',' :: newLine (depth + 1)) lines
    ++ newLine depth ++ [right]

mutual

/-- A value inside `depth` brackets. -/
def print (depth : Nat) : Json → Text
  | bool b => if b then "true" else "false"
  | string s => quoted s
  | array items => between '[' ']' depth (printItems (depth + 1) items)
  | object fields => between '\x7b' '\x7d' depth (printFields (depth + 1) fields)

def printItems (depth : Nat) : List Json → List Text
  | [] => []
  | item :: items => print depth item :: printItems depth items

def printFields (depth : Nat) : List (Text × Json) → List Text
  | [] => []
  | (name, value) :: fields =>
    (quoted name ++ ": " ++ print depth value) :: printFields depth fields

end

/-- The text of a value, with a newline at its end. -/
def toText (value : Json) : Text := print 0 value ++ "\n"

end Json

end Galley
