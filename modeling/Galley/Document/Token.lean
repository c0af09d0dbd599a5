import Galley.Document.Attributes
import Galley.Text.Blank

/-!
# Tokens

A token `{{ post.name }}` stands for the values of an attribute. Its form is exact: two
opening braces, a space, the scope, a dot, a name, a space and two closing braces. A text is cut
into tokens and plain characters; substitution writes the values of known attributes and leaves
all else as it is. Written values hold no opening brace.
-/

namespace Galley.Document

namespace Token

def scope : Text := "post"

def isNameChar (c : Char) : Bool := c.isAlphanum || c = '_' || c = '-'

def isIdentifier (name : Text) : Bool := !name.isEmpty && name.all isNameChar

def opening : Text := "\x7b\x7b " ++ scope ++ "."

def closing : Text := " \x7d\x7d"

/-- The token of a name. -/
def written (name : Text) : Text := opening ++ name ++ closing

/-- The name of the token at the start of `s`. -/
def atStart? (s : Text) : Option Text := do
  let rest ← Text.dropPrefix? opening s
  let name := rest.takeWhile isNameChar
  if name.isEmpty then none
  else if Text.hasPrefix closing (rest.dropWhile isNameChar) then some name
  else none

/-- A part of a text: a plain character or a token. -/
inductive Piece
  | plain (c : Char)
  | token (name : Text)
deriving DecidableEq, Repr

/-- What a piece was read from. -/
def Piece.source : Piece → Text
  | plain c => [c]
  | token name => written name

/-- The pieces of a text after `skip` characters that belong to a token already found. -/
def piecesFrom : Nat → Text → List Piece
  | _, [] => []
  | skip + 1, _ :: s => piecesFrom skip s
  | 0, c :: s =>
    match atStart? (c :: s) with
    | some name => .token name :: piecesFrom ((written name).length - 1) s
    | none => .plain c :: piecesFrom 0 s

def pieces (s : Text) : List Piece := piecesFrom 0 s

def Piece.isToken : Piece → Bool
  | plain _ => false
  | token _ => true

def occursIn (s : Text) : Bool := (pieces s).any (·.isToken)

/-! ## Written values -/

/-- A list of tags written as one value, such as `[a, b, a]`: its distinct tags, none empty. -/
def splitTags (raw : Text) : List Text :=
  let inner := (Text.dropPrefix? "[" raw).getD raw
  let inner := (Text.dropSuffix? "]" inner).getD inner
  ((Text.splitOn "," inner).map Text.trimStart).foldl
    (fun tags tag => if tag.isEmpty || tags.contains tag then tags else tags ++ [tag]) []

/-- How a character of a value is written: special characters and the opening brace as entities,
a newline as a space, a carriage return not at all. -/
def valueChar (c : Char) : Text :=
  if c = '&' then "&amp;"
  else if c = '<' then "&lt;"
  else if c = '>' then "&gt;"
  else if c = '"' then "&quot;"
  else if c = '\'' then "&#39;"
  else if c = '\x7b' then "&#123;"
  else if c = '\r' then []
  else if c = '\n' then " "
  else [c]

/-- A maximal run of dashes: three are an em dash, two an en dash. -/
def dashRun (n : Nat) : Text :=
  if n = 3 then "&mdash;" else if n = 2 then "&ndash;" else List.replicate n '-'

/-- The text with its runs of dashes converted, after `run` dashes. -/
def convertDashesFrom (run : Nat) : Text → Text
  | [] => dashRun run
  | c :: s =>
    if c = '-' then convertDashesFrom (run + 1) s
    else dashRun run ++ c :: convertDashesFrom 0 s

def convertDashes (s : Text) : Text := convertDashesFrom 0 s

/-- How a value is written: without its quotes, escaped, with typographic dashes, trimmed. -/
def valueHtml (value : Text) : Text :=
  Text.trim (convertDashes ((Text.unquote value).flatMap valueChar))

def itemHtml (name value : Text) : Text :=
  "<span class='" ++ scope ++ "-item-" ++ name ++ "'>" ++ valueHtml value ++ "</span>"

/-- What stands between two items. -/
def delimiterHtml (name : Text) : Text :=
  "<span class='" ++ scope ++ "-delimiter-" ++ name ++ " delimiter'></span>"

/-- The values that an attribute shows: a single value of `tags` is read as a list. -/
def shownValues (name : Text) (values : List Text) : List Text :=
  match values with
  | [value] => if name = ("tags" : Text) then splitTags value else [value]
  | values => values

/-- An attribute as a token shows it. -/
def attributeHtml (name : Text) (values : List Text) : Text :=
  Text.joinWith (delimiterHtml name) ((shownValues name values).map (itemHtml name))

/-! ## Substitution -/

/-- What a piece becomes. -/
def Piece.substitute (attrs : Attributes) : Piece → Text
  | plain c => [c]
  | token name =>
    match attrs.get? name with
    | some values => attributeHtml name values
    | none => written name

/-- The text with the tokens of known attributes replaced by their values. -/
def substitute (attrs : Attributes) (s : Text) : Text :=
  (pieces s).flatMap (·.substitute attrs)

end Token

end Galley.Document
