import Galley.Number.Numeral
import Galley.Yaml.Cursor

/-!
# Scalars in a YAML text

Each style of scalar has its own rules on where it ends, which escapes it knows, and how its line
breaks fold: a single break between two lines becomes a space, and of several breaks in a row the
first is dropped. The functions return what a scalar says and the place behind it, or nothing if
the text is malformed. Each loop takes as fuel the length of the text that is left.
-/

namespace Galley.Yaml

/-- The breaks between two lines of a scalar: the first, and those of the empty lines after it. -/
structure Fold where
  first : Text := []
  others : Text := []
deriving DecidableEq, Repr

/-- What the breaks between two lines become. -/
def Fold.joined (fold : Fold) : Text :=
  if fold.first.head? = some '\n' then
    if fold.others.isEmpty then " " else fold.others
  else fold.first ++ fold.others

/-! ## Quoted scalars -/

/-- What a letter behind a backslash stands for. -/
def escapeLetter? : Char → Option Char
  | '0' => some '\x00'
  | 'a' => some '\x07'
  | 'b' => some '\x08'
  | 't' | '\t' => some '\t'
  | 'n' => some '\n'
  | 'v' => some '\x0b'
  | 'f' => some '\x0c'
  | 'r' => some '\r'
  | 'e' => some '\x1b'
  | ' ' => some ' '
  | '"' => some '"'
  | '/' => some '/'
  | '\\' => some '\\'
  | 'N' => some '\u0085'
  | '_' => some '\u00a0'
  | 'L' => some '\u2028'
  | 'P' => some '\u2029'
  | _ => none

/-- How many hexadecimal digits follow a letter behind a backslash. -/
def escapeWidth? : Char → Option Nat
  | 'x' => some 2
  | 'u' => some 4
  | 'U' => some 8
  | _ => none

/-- The character of an escape without its backslash, and the length of the escape. -/
def escape? : Text → Option (Char × Nat)
  | [] => none
  | c :: s =>
    match escapeWidth? c with
    | none => (escapeLetter? c).map (·, 1)
    | some width => (Numeral.codePoint? width s).map (·, width + 1)

/-- The blanks and breaks after a stretch of a quoted scalar: the blanks before the first break,
and the breaks, if there are any. -/
def quotedGap : Nat → Cursor → Bool → Text → Fold → Text × Fold × Bool × Cursor
  | 0, c, broken, blanks, fold => (blanks, fold, broken, c)
  | fuel + 1, c, broken, blanks, fold =>
    match c.peek with
    | none => (blanks, fold, broken, c)
    | some x =>
      if isSpaceOrTab x then
        quotedGap fuel c.next broken (if broken then blanks else blanks ++ [x]) fold
      else if isBreak x then
        if broken then
          quotedGap fuel c.nextLine true blanks { fold with others := fold.others ++ c.lineBreak }
        else quotedGap fuel c.nextLine true [] { first := c.lineBreak }
      else (blanks, fold, broken, c)

/-- The characters of a quoted scalar up to a blank, a break or the closing quote, and whether
they end in an escaped line break. -/
def quotedRun (single : Bool) : Nat → Cursor → Option (Text × Bool × Cursor)
  | 0, c => some ([], false, c)
  | fuel + 1, c =>
    match c.rest with
    | [] => some ([], false, c)
    | x :: s =>
      if isSpaceOrTab x || isBreak x then some ([], false, c)
      else if single && x = '\'' then
        if s.head? = some '\'' then
          (quotedRun single fuel (c.skip 2)).map fun (t, r) => ('\'' :: t, r)
        else some ([], false, c)
      else if !single && x = '"' then some ([], false, c)
      else if !single && x = '\\' then
        if s.head?.any isBreak then some ([], true, c.next.nextLine)
        else do
          let (y, width) ← escape? s
          let (t, r) ← quotedRun single fuel (c.skip (width + 1))
          some (y :: t, r)
      else (quotedRun single fuel c.next).map fun (t, r) => (x :: t, r)

/-- A quoted scalar after its opening quote. -/
def quotedFrom (single : Bool) : Nat → Cursor → Option (Text × Cursor)
  | 0, _ => none
  | fuel + 1, c =>
    if c.atDocumentMark || c.rest.isEmpty then none
    else do
      let (run, escapedBreak, c) ← quotedRun single c.rest.length c
      if c.peek = some (if single then '\'' else '"') then some (run, c.next)
      else
        let (blanks, fold, broken, c) := quotedGap c.rest.length c escapedBreak [] {}
        let (more, c) ← quotedFrom single fuel c
        some (run ++ (if broken then fold.joined else blanks) ++ more, c)

/-- The quoted scalar that begins at its opening quote. -/
def quoted? (single : Bool) (c : Cursor) : Option (Text × Cursor) :=
  quotedFrom single c.rest.length c.next

/-! ## Plain scalars -/

/-- Whether a plain scalar ends at this place within a line; `flow` says that it stands in a flow
collection. -/
def endsPlain (flow : Bool) : Text → Bool
  | [] => true
  | x :: s =>
    (x = ':' && endsToken s.head?)
      || (flow && (x = ',' || x = '[' || x = ']' || x = '\x7b' || x = '\x7d'))

/-- Whether a colon stands where a plain scalar in a flow collection may not have one. -/
def strayColon (flow : Bool) : Text → Bool
  | ':' :: x :: _ =>
    flow && (x = ',' || x = '?' || x = '[' || x = ']' || x = '\x7b' || x = '\x7d')
  | _ => false

/-- The characters of a plain scalar up to a blank, a break or its end. -/
def plainRun (flow : Bool) : Nat → Cursor → Option (Text × Cursor)
  | 0, c => some ([], c)
  | fuel + 1, c =>
    if endsToken c.peek then some ([], c)
    else if strayColon flow c.rest then none
    else if endsPlain flow c.rest then some ([], c)
    else
      match c.peek with
      | none => some ([], c)
      | some x => (plainRun flow fuel c.next).map fun (t, c) => (x :: t, c)

/-- The blanks and breaks after a stretch of a plain scalar. A tab may not stand in for the
indentation of a line. -/
def plainGap (indent : Int) : Nat → Cursor → Bool → Text → Fold →
    Option (Text × Fold × Bool × Cursor)
  | 0, c, broken, blanks, fold => some (blanks, fold, broken, c)
  | fuel + 1, c, broken, blanks, fold =>
    match c.peek with
    | none => some (blanks, fold, broken, c)
    | some x =>
      if isSpaceOrTab x then
        if broken && (c.column : Int) < indent && x = '\t' then none
        else plainGap indent fuel c.next broken (if broken then blanks else blanks ++ [x]) fold
      else if isBreak x then
        if broken then
          plainGap indent fuel c.nextLine true blanks
            { fold with others := fold.others ++ c.lineBreak }
        else plainGap indent fuel c.nextLine true [] { first := c.lineBreak }
      else some (blanks, fold, broken, c)

/-- A plain scalar whose next stretch comes after `gap`: the text from `gap` on, the place behind
it, and whether a line break was passed since its last character. -/
def plainFrom (flow : Bool) (indent : Int) : Nat → Cursor → Text → Bool →
    Option (Text × Cursor × Bool)
  | 0, c, _, broken => some ([], c, broken)
  | fuel + 1, c, gap, broken =>
    if c.atDocumentMark || c.peek = some '#' then some ([], c, broken)
    else do
      let (run, after) ← plainRun flow c.rest.length c
      if run.isEmpty then some ([], after, broken)
      else if !(after.atBlank || after.atBreak) then some (gap ++ run, after, false)
      else
        let (blanks, fold, broken, next) ← plainGap indent after.rest.length after false [] {}
        if !flow && (next.column : Int) < indent then some (gap ++ run, next, broken)
        else
          let gap' := if broken then fold.joined else blanks
          let (more, c, broken) ← plainFrom flow indent fuel next gap' broken
          some (gap ++ run ++ more, c, broken)

/-- The plain scalar that begins here, the place behind it, and whether a line break was passed
since its last character. The lines after the first are indented to `indent` at least, unless in a flow collection. -/
def plain? (flow : Bool) (indent : Int) (c : Cursor) : Option (Text × Cursor × Bool) :=
  plainFrom flow indent (c.rest.length + 1) c [] false

/-! ## Block scalars -/

/-- What happens to the line breaks at the end of a block scalar. -/
inductive Chomping
  | strip | clip | keep
deriving DecidableEq, Repr

/-- The digit of an indentation indicator, which is not zero. -/
def indentDigit? (c : Cursor) : Option (Option Nat × Cursor) :=
  match c.peek with
  | some x =>
    if x = '0' then none
    else if x.isDigit then some (some (x.toNat - '0'.toNat), c.next)
    else some (none, c)
  | none => some (none, c)

def chompSign (c : Cursor) : Option Chomping × Cursor :=
  match c.peek with
  | some '+' => (some .keep, c.next)
  | some '-' => (some .strip, c.next)
  | _ => (none, c)

/-- The indicators of a block scalar, in either order. -/
def blockHeader? (c : Cursor) : Option (Chomping × Option Nat × Cursor) :=
  match chompSign c with
  | (some chomping, c) => do
    let (digit, c) ← indentDigit? c
    some (chomping, digit, c)
  | (none, c) => do
    let (digit, c) ← indentDigit? c
    if digit.isSome then
      let (sign, c) := chompSign c
      some (sign.getD .clip, digit, c)
    else some (.clip, none, c)

/-- The empty lines before the next line of a block scalar, with the deepest column reached. A
known indentation is not passed, and a tab does not count as one. -/
def blockGap (indent : Option Nat) : Nat → Cursor → Nat → Text → Option (Text × Nat × Cursor)
  | 0, c, deepest, breaks => some (breaks, deepest, c)
  | fuel + 1, c, deepest, breaks =>
    let room := indent.map (· - c.column)
    let spaces := (c.rest.takeWhile (· = ' ')).length
    let c := c.skip ((room.map (min spaces)).getD spaces)
    let deepest := max deepest c.column
    let inside := (indent.map fun n => decide (c.column < n)).getD true
    if inside && c.peek = some '\t' then none
    else if c.atBreak then blockGap indent fuel c.nextLine deepest (breaks ++ c.lineBreak)
    else some (breaks, deepest, c)

/-- The lines of a block scalar from a place in its indentation column, given the break of the
line before and those of the empty lines after it: the text, and the breaks behind it. -/
def blockLines (literal : Bool) (indent : Nat) : Nat → Cursor → Text → Text → Bool →
    Option (Text × Text × Text × Cursor)
  | 0, c, lead, trail, _ => some ([], lead, trail, c)
  | fuel + 1, c, lead, trail, leadingBlank =>
    if c.column ≠ indent ∨ c.rest.isEmpty then some ([], lead, trail, c)
    else do
      let blank := c.atBlank
      let folds := !literal && lead.head? = some '\n' && !leadingBlank && !blank
      let gap : Text := if folds then (if trail.isEmpty then " " else trail) else lead ++ trail
      let line := c.rest.takeWhile (!isBreak ·)
      let c := c.skip line.length
      let lead := c.lineBreak
      let (trail, _, c) ← blockGap (some indent) (c.rest.length + 1) c.nextLine 0 []
      let (more, lead, trail, c) ← blockLines literal indent fuel c lead trail blank
      some (gap ++ line ++ more, lead, trail, c)

/-- The block scalar that begins at its indicator, inside a block of the given indentation. -/
def block? (literal : Bool) (parent : Int) (c : Cursor) : Option (Text × Cursor) := do
  let (chomping, increment, c) ← blockHeader? c.next
  let c := c.skipWhile isSpaceOrTab
  let c := if c.peek = some '#' then c.skipToBreak else c
  if !c.atBreakOrEnd then none
  else
    let c := if c.atBreak then c.nextLine else c
    let known : Option Nat := increment.map fun n => n + parent.toNat
    let (trail, deepest, c) ← blockGap known (c.rest.length + 1) c 0 []
    let indent := known.getD (max (max deepest (parent + 1).toNat) 1)
    let (text, lead, trail, c) ← blockLines literal indent (c.rest.length + 1) c [] trail false
    match chomping with
    | .strip => some (text, c)
    | .clip => some (text ++ lead, c)
    | .keep => some (text ++ lead ++ trail, c)

end Galley.Yaml
