import Galley.Text.Blank
import Galley.Yaml.Value

/-!
# Writing YAML

Collections are written in block style, two columns for each level, and empty ones as `[]` and
`{}`. A sequence in a mapping is not indented. A string is plain if it would be read back as
the same string, else in single quotes, and in double quotes if some character needs an escape. A
string of several lines is a literal block.
-/

namespace Galley.Yaml

/-! ## Strings -/

/-- Whether a character can be written as it is. -/
def isPrintable (c : Char) : Bool :=
  let n := c.toNat
  n = 0xa || (0x20 ≤ n && n ≤ 0x7e) || (0xa0 ≤ n && n ≤ 0xfffd && n ≠ 0xfeff)

/-- Whether a character of a string, between its neighbours, has a meaning in plain style. -/
def isIndicator (before : Option Char) (c : Char) (after : Option Char) : Bool :=
  match before with
  | none =>
    ("#,[]\x7b\x7d&*!|>'\"%@`" : Text).contains c
      || ((c = '?' || c = ':' || c = '-') && endsToken after)
  | some b => (c = ':' && endsToken after) || (c = '#' && endsToken (some b))

/-- Whether some character of a string, from the one behind `before` on, is an indicator. -/
def hasIndicator (before : Option Char) : Text → Bool
  | [] => false
  | c :: s => isIndicator before c s.head? || hasIndicator (some c) s

/-- Whether a space stands next to a line break, on the side that `spaceFirst` says. -/
def hasSpaceByBreak (spaceFirst : Bool) : Text → Bool
  | a :: b :: s =>
    (if spaceFirst then a = ' ' && isBreak b else isBreak a && b = ' ')
      || hasSpaceByBreak spaceFirst (b :: s)
  | _ => false

/-- Whether the string needs double quotes. -/
def needsEscapes (s : Text) : Bool := s.any (!isPrintable ·) || hasSpaceByBreak true s

/-- Whether the string can stand without quotes, apart from what it would mean. -/
def allowsPlain (s : Text) : Bool :=
  let edge (c : Option Char) := c.any fun x => x = ' ' || isBreak x
  !(Text.hasPrefix "---" s || Text.hasPrefix "..." s) && !hasIndicator none s
    && !edge s.head? && !edge s.getLast? && !s.any isBreak

/-- Whether a plain scalar with this text would be a string. -/
def readsAsString (s : Text) : Bool :=
  !hasLeadingZero s
    && match plainValue? s with
      | some (.string _) => true
      | some _ => false
      | none => false

/-- How a string is written. -/
inductive Style
  | plain | single | double | literal
deriving DecidableEq, Repr

/-- The style of a string; a `key` stands on one line. -/
def styleOf (key : Bool) (s : Text) : Style :=
  if s.contains '\n' then
    if key || needsEscapes s || s.getLast? = some ' ' then .double else .literal
  else if key && s.any isBreak then .double
  else if readsAsString s && allowsPlain s then .plain
  else if needsEscapes s || hasSpaceByBreak false s then .double
  else .single

/-- The last `width` hexadecimal digits of a number, in capitals. -/
def hexDigits (width n : Nat) : Text :=
  let digits := (Nat.toDigits 16 n).map Char.toUpper
  List.replicate (width - digits.length) '0' ++ digits

def escaped (c : Char) : Text :=
  let n := c.toNat
  if isPrintable c && !isBreak c && c ≠ '"' && c ≠ '\\' then [c]
  else
    '\\' :: (match n with
      | 0x0 => "0" | 0x7 => "a" | 0x8 => "b" | 0x9 => "t" | 0xa => "n" | 0xb => "v" | 0xc => "f"
      | 0xd => "r" | 0x1b => "e" | 0x22 => "\"" | 0x5c => "\\" | 0x85 => "N" | 0x2028 => "L"
      | 0x2029 => "P"
      | _ =>
        if n ≤ 0xff then 'x' :: hexDigits 2 n
        else if n ≤ 0xffff then 'u' :: hexDigits 4 n
        else 'U' :: hexDigits 8 n : Text)

/-- The lines of a literal block, each that is not empty behind its indentation. -/
def literalLines (indent : Nat) (lineStart : Bool) : Text → Text
  | [] => []
  | c :: s =>
    if c = '\n' then c :: literalLines indent true s
    else Text.when lineStart (List.replicate indent ' ') ++ c :: literalLines indent false s

/-- The indicators of a literal block: an indentation if the text begins with a blank, and what
becomes of the line breaks at its end. -/
def literalHeader (s : Text) : Text :=
  let lead := s.head?.any fun c => c = ' ' || isBreak c
  let chomp : Text :=
    match s.reverse with
    | '\n' :: '\n' :: _ => "+"
    | ['\n'] => "+"
    | '\n' :: _ => ""
    | _ => "-"
  "|" ++ Text.when lead "2" ++ chomp

/-- A string at a level of indentation. -/
def stringText (key : Bool) (indent : Nat) (s : Text) : Text :=
  match styleOf key s with
  | .plain => s
  | .single => "'" ++ Text.replace "'" "''" s ++ "'"
  | .double => "\"" ++ s.flatMap escaped ++ "\""
  | .literal => literalHeader s ++ "\n" ++ literalLines (indent + 2) true s

/-! ## Values -/

/-- Where a value is written. -/
inductive Place
  /-- At the start of the text. -/
  | start
  /-- Behind the indicator of an item or of a long key or its value: a collection begins on the
  same line. -/
  | item
  /-- Behind the colon of a key: a collection begins on the next line. -/
  | value
deriving DecidableEq, Repr

/-- What separates a scalar from what stands before it. -/
def Place.gap : Place → Text
  | .start => []
  | .item | .value => " "

/-- What separates the first entry of a collection from what stands before it. -/
def Place.lead (place : Place) (indent : Nat) : Text :=
  match place with
  | .start => []
  | .item => " "
  | .value => '\n' :: List.replicate indent ' '

/-- The entries of a collection on lines of their own. -/
def stack (indent : Nat) : List Text → Text
  | [] => []
  | [entry] => entry
  | entry :: entries =>
    entry ++ Text.when (!Text.hasSuffix "\n" entry) "\n" ++ List.replicate indent ' '
      ++ stack indent entries

/-- The text of a value that fits on a line with its key, at a level of indentation. -/
def Value.inlineText? (key : Bool) (indent : Nat) : Value → Option Text
  | .null => some "null"
  | .bool b => some (if b then "true" else "false" : Text)
  | .number n => some n.toText
  | .string s => some (stringText key indent s)
  | .sequence [] => some "[]"
  | .mapping [] => some "\x7b\x7d"
  | .sequence _ | .mapping _ | .tagged _ _ => none

/-- Whether a key stands on the line of its value, and its text if so. -/
def Value.keyText? (indent : Nat) (key : Value) : Option Text :=
  let short (tag : Text) (v : Value) : Option Text :=
    match v with
    | .string s =>
      if s.any isBreak || 128 < tag.length + Text.byteLength s then none
      else some (stringText true indent s)
    | v => v.inlineText? true indent
  match key with
  | .tagged tag v => (short ('!' :: tag) v).map ('!' :: tag ++ " " ++ ·)
  | v => short [] v

mutual

/-- A value behind what stands before it. `indent` is the level of the collection around it. -/
def Value.print (place : Place) (inMapping : Bool) (indent : Int) : Value → Text
  | .null => place.gap ++ "null"
  | .bool b => place.gap ++ (if b then "true" else "false" : Text)
  | .number n => place.gap ++ n.toText
  | .string s => place.gap ++ stringText false indent.toNat s
  | .sequence [] => place.gap ++ "[]"
  | .mapping [] => place.gap ++ "\x7b\x7d"
  | .tagged tag v => place.gap ++ '!' :: tag ++ v.print .value inMapping indent
  | .sequence items =>
    let inner : Int :=
      if inMapping && place = .value then indent else if indent < 0 then 0 else indent + 2
    place.lead inner.toNat ++ stack inner.toNat (Value.printItems inner items)
  | .mapping pairs =>
    let inner : Int := if indent < 0 then 0 else indent + 2
    place.lead inner.toNat ++ stack inner.toNat (Value.printPairs inner pairs)

def Value.printItems (indent : Int) : List Value → List Text
  | [] => []
  | item :: items => ("-" ++ item.print .item false indent) :: Value.printItems indent items

def Value.printPairs (indent : Int) : List (Value × Value) → List Text
  | [] => []
  | (key, value) :: pairs =>
    (match key.keyText? indent.toNat with
      | some text => text ++ ":" ++ value.print .value true indent
      | none =>
        stack indent.toNat
          ["?" ++ key.print .item true indent, ":" ++ value.print .item true indent])
      :: Value.printPairs indent pairs

end

/-! ## Values without a text -/

/-- Whether the only pair of a mapping has a key that cannot open it: a value under a tag, or
another mapping with one pair. -/
def hasClosedKey : List (Value × Value) → Bool
  | [(.tagged .., _)] | [(.mapping [_], _)] => true
  | _ => false

mutual

/-- Whether a value has a text; a mapping under a tag is open from the start. -/
def Value.isPrintable (underTag : Bool) : Value → Bool
  | .sequence items => Value.allPrintable items
  | .mapping pairs => (underTag || !hasClosedKey pairs) && Value.pairsPrintable pairs
  | .tagged _ v => v.isPrintable true
  | _ => true

def Value.allPrintable : List Value → Bool
  | [] => true
  | item :: items => item.isPrintable false && Value.allPrintable items

def Value.pairsPrintable : List (Value × Value) → Bool
  | [] => true
  | (key, value) :: pairs =>
    key.isPrintable false && value.isPrintable false && Value.pairsPrintable pairs

end

/-- A value as a YAML text, without a line break at the end. -/
def Value.toText? (v : Value) : Option Text :=
  if v.isPrintable false then some (Text.trimEnd (v.print .start false (-1))) else none

end Galley.Yaml
