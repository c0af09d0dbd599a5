/-!
# Text

A text is a list of characters, so that every scan over it is a recursion on the data. A string
literal stands for its list of characters wherever a text is expected. This module holds the
operations that know nothing of any format: prefixes and suffixes, search and replacement of a
fixed pattern, cutting into lines, and the length in UTF-8 bytes.

The main facts: the lines of a text concatenate to it, and so do the pieces of a split, with the
separator put back between them.
-/

namespace Galley

/-- A text: its characters in order. -/
abbrev Text := List Char

instance : Coe String Text := ⟨String.toList⟩

namespace Text

/-- The decimal digits of a number. -/
def ofNat (n : Nat) : Text := Nat.toDigits 10 n

/-- The number of bytes of `s` in UTF-8. -/
def byteLength : Text → Nat
  | [] => 0
  | c :: s => c.utf8Size + byteLength s

theorem byteLength_append (a b : Text) : byteLength (a ++ b) = byteLength a + byteLength b := by
  induction a with
  | nil => simp [byteLength]
  | cons c a ih => rw [List.cons_append, byteLength, byteLength, ih]; omega

/-! ## Prefixes and suffixes -/

/-- The rest of `s` after the prefix `p`, if it has that prefix. -/
def dropPrefix? : Text → Text → Option Text
  | [], s => some s
  | _ :: _, [] => none
  | p :: ps, c :: s => if p = c then dropPrefix? ps s else none

/-- The rest of `s` before the suffix `p`, if it has that suffix. -/
def dropSuffix? (p s : Text) : Option Text :=
  (dropPrefix? p.reverse s.reverse).map List.reverse

def hasPrefix (p s : Text) : Bool := (dropPrefix? p s).isSome

def hasSuffix (p s : Text) : Bool := (dropSuffix? p s).isSome

theorem dropPrefix?_eq_some_iff {p s r : Text} : dropPrefix? p s = some r ↔ s = p ++ r := by
  induction p generalizing s with
  | nil => simp [dropPrefix?]
  | cons x p ih =>
    cases s with
    | nil => simp [dropPrefix?]
    | cons c s =>
      by_cases h : x = c
      · simp [dropPrefix?, h, ih]
      · simp [dropPrefix?, h, Ne.symm h]

theorem dropSuffix?_eq_some_iff {p s r : Text} : dropSuffix? p s = some r ↔ s = r ++ p := by
  constructor
  · intro h
    obtain ⟨t, ht, rfl⟩ := Option.map_eq_some_iff.1 h
    have := congrArg List.reverse (dropPrefix?_eq_some_iff.1 ht)
    simpa using this
  · rintro rfl
    have : dropPrefix? p.reverse (r ++ p).reverse = some r.reverse :=
      dropPrefix?_eq_some_iff.2 (by simp)
    exact Option.map_eq_some_iff.2 ⟨_, this, List.reverse_reverse r⟩

/-- `s` without one layer of equal quotes around it. -/
def unquote (s : Text) : Text :=
  let inner (quote : Char) := (dropPrefix? [quote] s).bind (dropSuffix? [quote])
  ((inner '\'').or (inner '"')).getD s

/-! ## Search and replacement -/

def hasInfix (p : Text) : Text → Bool
  | [] => p.isEmpty
  | c :: s => hasPrefix p (c :: s) || hasInfix p s

/-- Replaces the occurrences of `p`, from the left and without overlap, after `skip` characters
that belong to an occurrence already replaced. -/
def replaceFrom (p r : Text) : Nat → Text → Text
  | _, [] => []
  | skip + 1, _ :: s => replaceFrom p r skip s
  | 0, c :: s =>
    if hasPrefix p (c :: s) then r ++ replaceFrom p r (p.length - 1) s
    else c :: replaceFrom p r 0 s

/-- Replaces every occurrence of the nonempty pattern `p` by `r`, from the left and without
overlap. -/
def replace (p r s : Text) : Text := replaceFrom p r 0 s

/-- Adds a character to the first piece of a list of pieces. -/
def consHead (c : Char) : List Text → List Text
  | [] => [[c]]
  | t :: ts => (c :: t) :: ts

/-- Cuts at the occurrences of `p`, after `skip` characters that belong to a separator. -/
def splitFrom (p : Text) : Nat → Text → List Text
  | _, [] => [[]]
  | skip + 1, _ :: s => splitFrom p skip s
  | 0, c :: s =>
    if hasPrefix p (c :: s) then [] :: splitFrom p (p.length - 1) s
    else consHead c (splitFrom p 0 s)

/-- Cuts `s` at every occurrence of the nonempty separator `p`; there is one piece more than
there are separators. -/
def splitOn (p s : Text) : List Text := splitFrom p 0 s

/-! ## Lines -/

/-- The lines of a text, each with the newline that ends it. -/
def lines : Text → List Text
  | [] => []
  | c :: s => if c = '\n' then [c] :: lines s else consHead c (lines s)

@[simp] theorem flatten_consHead (c : Char) (ts : List Text) :
    (consHead c ts).flatten = c :: ts.flatten := by
  cases ts <;> simp [consHead]

@[simp] theorem flatten_lines (s : Text) : (lines s).flatten = s := by
  induction s with
  | nil => rfl
  | cons c s ih => by_cases h : c = '\n' <;> simp [lines, h, ih]

/-- The longest suffix of `s` whose characters all satisfy `p` is cut off. -/
def dropEndWhile (p : Char → Bool) (s : Text) : Text :=
  (s.reverse.dropWhile p).reverse

/-- The text if the condition holds, else nothing. -/
def when (b : Bool) (s : Text) : Text := if b then s else []

/-- Texts joined with a separator between neighbours. -/
def joinWith (sep : Text) : List Text → Text
  | [] => []
  | [t] => t
  | t :: ts => t ++ sep ++ joinWith sep ts

end Text

end Galley
