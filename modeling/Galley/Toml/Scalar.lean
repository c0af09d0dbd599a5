import Galley.Number.Numeral
import Galley.Toml.Value

/-!
# Unquoted TOML values

A value without quotes and brackets is a truth value, a number, a date or a time. Digits can be
grouped by underscores that stand between two of them, and decimal numbers begin with a zero only
if nothing else stands before the point.
-/

namespace Galley.Toml

/-! ## Numbers -/

/-- The digits of a base without the single underscores between them. -/
def ungroup? (base : Nat) : Text → Option Text
  | [] => none
  | [c] => (Numeral.digit? base c).map fun _ => [c]
  | c :: '_' :: s => (Numeral.digit? base c).bind fun _ => (ungroup? base s).map (c :: ·)
  | c :: s => (Numeral.digit? base c).bind fun _ => (ungroup? base s).map (c :: ·)

/-- The number in grouped digits of a base. -/
def grouped? (base : Nat) (s : Text) : Option Nat := (ungroup? base s).bind (Numeral.natural? base)

/-- Decimal digits without underscores and without a needless zero at their start. -/
def whole? (s : Text) : Option Text :=
  (ungroup? 10 s).filter fun digits => digits.length = 1 || digits.head? ≠ some '0'

/-- Whether the text has a minus sign, and what stands behind its sign. -/
def sign : Text → Bool × Text
  | '-' :: s => (true, s)
  | '+' :: s => (false, s)
  | s => (false, s)

/-- The integer that is written; only a decimal one has a sign. -/
def integer? (s : Text) : Option Int :=
  match s with
  | '0' :: 'x' :: s => (grouped? 16 s).map Int.ofNat
  | '0' :: 'o' :: s => (grouped? 8 s).map Int.ofNat
  | '0' :: 'b' :: s => (grouped? 2 s).map Int.ofNat
  | s =>
    let (negative, s) := sign s
    (whole? s).bind (Numeral.natural? 10) |>.map fun n => if negative then -(n : Int) else n

def isExponentMark (c : Char) : Bool := c = 'e' || c = 'E'

def exponent? (s : Text) : Option Text :=
  match s with
  | '-' :: s => (ungroup? 10 s).map ("e-" ++ ·)
  | '+' :: s => (ungroup? 10 s).map ('e' :: ·)
  | s => (ungroup? 10 s).map ('e' :: ·)

/-- A decimal with a point, an exponent or both, without sign and underscores. -/
def decimal? (s : Text) : Option Text := do
  let mantissa := s.takeWhile (!isExponentMark ·)
  let tail ← match s.drop mantissa.length with
    | [] => some []
    | _ :: e => exponent? e
  match mantissa.takeWhile (· ≠ '.'), mantissa.dropWhile (· ≠ '.') with
  | whole, _ :: places => some ((← whole? whole) ++ '.' :: (← ungroup? 10 places) ++ tail)
  | whole, [] => if tail.isEmpty then none else some ((← whole? whole) ++ tail)

/-- The floating point number that is written, unless it is too large for one. -/
def float? (s : Text) : Option Value :=
  let (negative, s) := sign s
  if s = ("inf" : Text) then some (.infinity negative)
  else if s = ("nan" : Text) then some .nan
  else (decimal? s).bind (Numeral.decimal? negative) |>.map .float

/-! ## Dates and times -/

/-- The number in exactly `width` decimal digits, if it is in bounds, and what follows it. -/
def field? (width low high : Nat) (s : Text) : Option (Nat × Text) := do
  let digits := s.take width
  let n ← Numeral.natural? 10 digits
  if digits.length = width && low ≤ n && n ≤ high then some (n, s.drop width) else none

/-- The number of days of a month. -/
def daysOf (year month : Nat) : Nat :=
  if month = 2 then
    if (year % 4 = 0 ∧ year % 100 ≠ 0) ∨ year % 400 = 0 then 29 else 28
  else if month = 4 ∨ month = 6 ∨ month = 9 ∨ month = 11 then 30
  else 31

def afterDate? (s : Text) : Option Text := do
  let (year, s) ← field? 4 0 9999 s
  let (month, s) ← field? 2 1 12 (← Text.dropPrefix? "-" s)
  let (_, s) ← field? 2 1 (daysOf year month) (← Text.dropPrefix? "-" s)
  some s

def afterMinutes? (s : Text) : Option Text := do
  let (_, s) ← field? 2 0 23 s
  let (_, s) ← field? 2 0 59 (← Text.dropPrefix? ":" s)
  some s

/-- What follows a time of the day; its seconds may be missing, or have a fraction. -/
def afterTime? (s : Text) : Option Text := do
  match ← afterMinutes? s with
  | ':' :: s =>
    match ← field? 2 0 60 s with
    | (_, '.' :: s) =>
      let fraction := s.takeWhile Char.isDigit
      if fraction.isEmpty then none else some (s.drop fraction.length)
    | (_, s) => some s
  | s => some s

/-- Whether the text is the distance of a time zone, or empty. -/
def isOffset (s : Text) : Bool :=
  match s with
  | [] => true
  | ['Z'] | ['z'] => true
  | '+' :: s | '-' :: s => afterMinutes? s = some []
  | _ => false

def isDate (s : Text) : Bool := afterDate? s = some []

/-- Whether the text is a date, a time of the day, or a date with a time and perhaps a zone. -/
def isDateTime (s : Text) : Bool :=
  match afterDate? s with
  | none => afterTime? s = some []
  | some [] => true
  | some (c :: s) => (c = 'T' || c = 't' || c = ' ') && (afterTime? s).any isOffset

/-! ## Unquoted values -/

/-- What a text without quotes means. Integers have at most 128 bits. -/
def scalar? (s : Text) : Option Value :=
  if s = ("true" : Text) then some (.boolean true)
  else if s = ("false" : Text) then some (.boolean false)
  else if isDateTime s then some (.dateTime s)
  else
    match integer? s with
    | some n => if Numeral.fits 128 n then some (.integer n) else none
    | none => float? s

def isWordChar (c : Char) : Bool := !("=,[]\x7b\x7d \t#\r\n" : Text).contains c

/-- The characters of the unquoted value at the start of a text. One space may stand between a
date and a time. -/
def word (s : Text) : Text :=
  let first := s.takeWhile isWordChar
  match s.drop first.length with
  | ' ' :: c :: rest =>
    if isDate first && c.isDigit then first ++ ' ' :: c :: rest.takeWhile isWordChar else first
  | _ => first

end Galley.Toml
