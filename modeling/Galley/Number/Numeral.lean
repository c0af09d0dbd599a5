import Galley.Number.Binary64

/-!
# Numerals

Numbers written in the digits of a base of at most sixteen, and decimals with a point and an
exponent.
-/

namespace Galley.Numeral

/-- The value of a digit in a base of at most sixteen. -/
def digit? (base : Nat) (c : Char) : Option Nat :=
  let value :=
    if c.isDigit then some (c.toNat - '0'.toNat)
    else if 'a' ≤ c ∧ c ≤ 'f' then some (c.toNat - 'a'.toNat + 10)
    else if 'A' ≤ c ∧ c ≤ 'F' then some (c.toNat - 'A'.toNat + 10)
    else none
  value.filter (· < base)

/-- The number written in digits of a base, of which there is at least one. -/
def natural? (base : Nat) (s : Text) : Option Nat :=
  if s.isEmpty then none
  else s.foldlM (fun n c => (digit? base c).map (base * n + ·)) 0

/-- The number written in exactly `width` hexadecimal digits, which stand at the start. -/
def fixedHex? (width : Nat) (s : Text) : Option Nat :=
  let digits := s.take width
  if digits.length = width then natural? 16 digits else none

/-- The character whose code point is written in exactly `width` hexadecimal digits. -/
def codePoint? (width : Nat) (s : Text) : Option Char := do
  let n ← fixedHex? width s
  if n.isValidChar then some (Char.ofNat n) else none

/-- Whether a word of this many bits holds the integer, with or without a sign. -/
def fits (bits : Nat) (n : Int) : Bool := -(Nat.pow 2 (bits - 1) : Int) ≤ n && n < (Nat.pow 2 bits : Int)

def signed? : Text → Option Int
  | '+' :: s => (natural? 10 s).map Int.ofNat
  | '-' :: s => (natural? 10 s).map fun n => -(n : Int)
  | s => (natural? 10 s).map Int.ofNat

def exponent? : Text → Option Int
  | [] => some 0
  | e :: s => if e = 'e' ∨ e = 'E' then signed? s else none

/-- The finite number that a decimal without a sign is nearest to. -/
def decimal? (negative : Bool) (s : Text) : Option Binary64 := do
  let whole := s.takeWhile Char.isDigit
  let rest := s.dropWhile Char.isDigit
  let (places, rest) :=
    match rest with
    | '.' :: rest => (rest.takeWhile Char.isDigit, rest.dropWhile Char.isDigit)
    | rest => ([], rest)
  let digits ← natural? 10 (whole ++ places)
  let e ← exponent? rest
  Binary64.ofDecimal? negative digits (e - places.length)

end Galley.Numeral
