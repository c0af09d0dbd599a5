import Galley.Text

/-!
# Blank characters

The characters with the Unicode property `White_Space`, and what is cut off when blanks are
trimmed.
-/

namespace Galley.Text

/-- The code points with the property `White_Space`, as closed ranges. -/
def blankRanges : List (Nat × Nat) :=
  [(0x9, 0xd), (0x20, 0x20), (0x85, 0x85), (0xa0, 0xa0), (0x1680, 0x1680), (0x2000, 0x200a),
    (0x2028, 0x2029), (0x202f, 0x202f), (0x205f, 0x205f), (0x3000, 0x3000)]

/-- Whether `c` lies in one of the closed ranges. -/
def inRanges (ranges : List (Nat × Nat)) (c : Char) : Bool :=
  ranges.any fun r => r.1 ≤ c.toNat && c.toNat ≤ r.2

/-- Whether `c` has the property `White_Space`. -/
def isBlank (c : Char) : Bool := inRanges blankRanges c

def trimStart (s : Text) : Text := s.dropWhile isBlank

def trimEnd (s : Text) : Text := dropEndWhile isBlank s

def trim (s : Text) : Text := trimEnd (trimStart s)

/-- The first run of characters that are not blank. -/
def firstWord? (s : Text) : Option Text :=
  match (trimStart s).takeWhile (!isBlank ·) with
  | [] => none
  | w => some w

end Galley.Text
