import Galley.Text

/-!
# Binary floating point, read and written in decimal

A finite binary64 number is a sign and `mantissa · 2 ^ exponent`. A decimal numeral stands for
the nearest such number, an exact half going to the even mantissa. In writing, the digits are the
fewest that read back as the same number, and of those the nearest to it. All arithmetic is exact,
on natural numbers.
-/

namespace Galley

/-- A finite binary64 number. -/
structure Binary64 where
  negative : Bool
  /-- Below `2 ^ 53`. -/
  mantissa : Nat
  /-- Between `-1074` and `971`. -/
  exponent : Int
deriving DecidableEq, Repr

namespace Binary64

/-- The fraction `num · base ^ e / den` as a pair of natural numbers. -/
def scale (num den base : Nat) (e : Int) : Nat × Nat :=
  if 0 ≤ e then (num * base.pow e.toNat, den) else (num, den * base.pow (-e).toNat)

/-- The quotient rounded to the nearest natural number, a half to the even one. -/
def divRound (num den : Nat) : Nat :=
  let q := num / den
  let r := num % den
  if 2 * r < den then q
  else if den < 2 * r then q + 1
  else if q % 2 = 0 then q else q + 1

/-- The least mantissa of 53 bits. -/
def leastMantissa : Nat := 1 <<< 52

/-- The exponent for a mantissa of 53 bits, or the least one for a number too small for that. -/
def exponentFor (num den : Nat) : Int :=
  let guess : Int := (num.log2 : Int) - den.log2 - 52
  let (n, d) := scale num den 2 (-guess)
  let e := if n / d < leastMantissa then guess - 1 else guess
  max e (-1074)

/-- The magnitude nearest to a fraction, unless it is too large. -/
def nearest? (num den : Nat) : Option (Nat × Int) :=
  if num = 0 then some (0, -1074)
  else
    let e := exponentFor num den
    let (n, d) := scale num den 2 (-e)
    let m := divRound n d
    let (m, e) := if m = 2 * leastMantissa then (leastMantissa, e + 1) else (m, e)
    if 971 < e then none else some (m, e)

/-- The number nearest to `digits · 10 ^ exponent`, unless it is too large. -/
def ofDecimal? (negative : Bool) (digits : Nat) (exponent : Int) : Option Binary64 :=
  if digits = 0 then some ⟨negative, 0, -1074⟩
  -- Far outside the range the powers of ten need not be computed.
  else if 400 < exponent + (Nat.toDigits 10 digits).length then none
  else if exponent + (Nat.toDigits 10 digits).length < -400 then some ⟨negative, 0, -1074⟩
  else
    let (num, den) := scale digits 1 10 exponent
    (nearest? num den).map fun (m, e) => ⟨negative, m, e⟩

/-! ## Shortest digits -/

/-- Whether `a / b ≤ c / d`, or `<` if `strict`. -/
def belowFraction (strict : Bool) (a b c d : Nat) : Bool :=
  if strict then a * d < c * b else a * d ≤ c * b

/-- Whether the fraction `num / den` rounds to the magnitude `m · 2 ^ e`. -/
def roundsTo (m : Nat) (e : Int) (num den : Nat) : Bool :=
  let strict := m % 2 = 1
  -- Just above a power of two, the numbers below lie twice as close.
  let (low, lowDen) :=
    if m = leastMantissa ∧ -1074 < e then scale (4 * m - 1) 1 2 (e - 2)
    else scale (2 * m - 1) 1 2 (e - 1)
  let (high, highDen) := scale (2 * m + 1) 1 2 (e - 1)
  belowFraction strict low lowDen num den && belowFraction strict num den high highDen

/-- The number of digits of `num / den` before the point; negative if zeros follow the point. -/
def magnitude (num den : Nat) : Int :=
  let guess : Int := (Nat.toDigits 10 num).length - (Nat.toDigits 10 den).length
  -- The value lies between `10 ^ (guess - 1)` and `10 ^ (guess + 1)`.
  let (a, b) := scale 1 1 10 guess
  if num * b < a * den then guess else guess + 1

/-- Searches the decimal grids of `n`, `n + 1`, … digits for one with a point that reads back. -/
def shortestFrom (m : Nat) (e : Int) (num den : Nat) (point : Int) : Nat → Nat → Nat × Int
  | 0, n => (divRound num den, point - n)
  | fuel + 1, n =>
    let unit := point - n
    let (a, b) := scale num den 10 (-unit)
    let low := a / b
    let reads (digits : Nat) : Bool :=
      let (x, y) := scale digits 1 10 unit
      0 < digits && roundsTo m e x y
    let closerLow := 2 * (a % b) < b || (2 * (a % b) = b && low % 2 = 0)
    if reads low && (closerLow || !reads (low + 1)) then (low, unit)
    else if reads (low + 1) then (low + 1, unit)
    else shortestFrom m e num den point fuel (n + 1)

/-- The shortest digits of a magnitude other than zero, and the exponent of ten of the last. -/
def shortest (m : Nat) (e : Int) : Nat × Int :=
  let (num, den) := scale m 1 2 e
  shortestFrom m e num den (magnitude num den) 17 1

/-- The text of a number: positional between `0.00001` and `10 ^ 16`, with at least one digit
behind the point, and else with an exponent. -/
def toText (x : Binary64) : Text :=
  let sign := Text.when x.negative "-"
  if x.mantissa = 0 then sign ++ "0.0"
  else
    let (digits, unit) := shortest x.mantissa x.exponent
    let point : Int := (Text.ofNat digits).length + unit
    -- A grid point such as 10 has a digit that the next coarser grid does without.
    let ds := Text.dropEndWhile (· = '0') (Text.ofNat digits)
    let unit := point - ds.length
    sign ++
      (if 0 ≤ unit ∧ point ≤ 16 then ds ++ List.replicate unit.toNat '0' ++ ".0"
      else if 0 < point ∧ point ≤ 16 then ds.take point.toNat ++ "." ++ ds.drop point.toNat
      else if -5 < point ∧ point ≤ 0 then "0." ++ List.replicate (-point).toNat '0' ++ ds
      else
        let e := point - 1
        let tail := "e" ++ Text.when (e < 0) "-" ++ Text.ofNat e.natAbs
        if ds.length = 1 then ds ++ tail else ds.take 1 ++ "." ++ ds.drop 1 ++ tail)

end Binary64

end Galley
