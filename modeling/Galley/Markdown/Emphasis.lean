import Galley.Markdown.Inline

/-!
# Emphasis

Runs of delimiters are matched from the left: a run that can close an element matches the nearest
run before it that can open one. Delimiters that match nothing are text.
-/

namespace Galley.Markdown

/-- A run that may open an element, with the elements behind it, the latest first. -/
structure Opener where
  delimiter : Char
  /-- How many delimiters of the run are left. -/
  left : Nat
  /-- The length of the run at first. -/
  length : Nat
  /-- Whether the run can also close an element. -/
  closes : Bool
  content : List Inline := []
deriving Repr

namespace Opener

/-- The elements of an opener that matches nothing, the latest first. -/
def unmatched (o : Opener) : List Inline :=
  o.content ++ [.text (List.replicate o.left o.delimiter)]

/-- Whether a run of the given length closes an element that the opener opens. Two runs of stars or
underscores, one of which can both open and close, do not match if their lengths add up to a
multiple of three, unless both are such multiples. The lengths of others are equal. -/
def closedBy (o : Opener) (delimiter : Char) (length : Nat) (opens : Bool) : Bool :=
  o.delimiter = delimiter
    && (delimiter = '*' || delimiter = '_' || length = o.length)
    && (!opens && !o.closes || (length + o.length) % 3 ≠ 0 || length % 3 = 0)

end Opener

/-- The element between single or double delimiters. -/
def delimitedTag (delimiter : Char) (double : Bool) : Tag :=
  if delimiter = '~' then if double then .strikethrough else .subscript
  else if delimiter = '^' then .superscript
  else if double then .strong
  else .emphasis

/-- The elements that `n` matched delimiters on each side make of a content; double ones are
innermost. -/
def delimited (delimiter : Char) : Nat → List Inline → List Inline
  | 0, content => content
  | 1, content => [.span (delimitedTag delimiter false) content]
  | n + 2, content => delimited delimiter n [.span (delimitedTag delimiter true) content]

/-- The matching of runs on its way through a list of elements. -/
structure Matching where
  /-- The elements before the first opener, the latest first. -/
  before : List Inline := []
  /-- The openers that can still match, the innermost first. -/
  openers : List Opener := []
  /-- So many openers, from the outermost, have no tildes to match. -/
  tildeFloor : Nat := 0
deriving Repr

namespace Matching

/-- Adds elements, the latest first. -/
def add (m : Matching) (elements : List Inline) : Matching :=
  match m.openers with
  | [] => { m with before := elements ++ m.before }
  | o :: os => { m with openers := { o with content := elements ++ o.content } :: os }

/-- The innermost opener that satisfies `p`, the elements behind it, the latest first, and the
openers outside it. -/
def findOpener? (p : Opener → Bool) (behind : List Inline) :
    List Opener → Option (Opener × List Inline × List Opener)
  | [] => none
  | o :: os =>
    if p o then some (o, behind ++ o.content, os) else findOpener? p (behind ++ o.unmatched) os

/-- Matches what is left of a run, in at most `fuel` steps. -/
def close (delimiter : Char) (length : Nat) (opens : Bool) : Nat → Nat → Matching → Nat × Matching
  | 0, left, m => (left, m)
  | fuel + 1, left, m =>
    let floor := if delimiter = '~' then m.tildeFloor else 0
    let visible := m.openers.take (m.openers.length - floor)
    match findOpener? (·.closedBy delimiter length opens) [] visible with
    | none =>
      (left, if delimiter = '~' then { m with tildeFloor := m.openers.length } else m)
    | some (o, content, outer) =>
      let outer := outer ++ m.openers.drop visible.length
      let n := min left o.left
      let element := delimited delimiter n content.reverse
      let m := { m with openers := outer, tildeFloor := min m.tildeFloor outer.length }
      let m :=
        if n < o.left then
          { m with openers := { o with left := o.left - n, content := element } :: outer }
        else m.add element
      if n < left then close delimiter length opens fuel (left - n) m else (0, m)

/-- Goes over an element. -/
def step (m : Matching) : Inline → Matching
  | .run delimiter length opens closes =>
    let (left, m) := if closes then close delimiter length opens length length m else (length, m)
    if left = 0 then m
    else if opens then { m with openers := { delimiter, left, length, closes } :: m.openers }
    else m.add [.text (List.replicate left delimiter)]
  | element => m.add [element]

/-- All elements in order; openers that are left match nothing. -/
def result (m : Matching) : List Inline :=
  (m.openers.flatMap Opener.unmatched ++ m.before).reverse

end Matching

mutual

/-- Matches the runs of delimiters among the children of an element. -/
def Inline.resolve : Inline → Inline
  | .span tag children => .span tag ((Inline.resolveList children).foldl Matching.step {}).result
  | element => element

/-- Matches the runs of delimiters among the children of each element. -/
def Inline.resolveList : List Inline → List Inline
  | [] => []
  | element :: elements => element.resolve :: Inline.resolveList elements

end

/-- Matches the runs of delimiters among elements and their children. -/
def resolveRuns (elements : List Inline) : List Inline :=
  ((Inline.resolveList elements).foldl Matching.step {}).result

end Galley.Markdown
