import Galley.Markdown.CharRef

/-!
# The parts of links

A link has a target and perhaps a title, or a label that refers to them. Labels are compared
without regard to case and with each run of blanks as one space. A target between angle brackets
links to itself.
-/

namespace Galley.Markdown

/-- Where a link leads, and its title. -/
structure Target where
  url : Text
  title : Text := []
deriving DecidableEq, Repr

namespace Link

/-! ## Targets -/

/-- The source of a target between angle brackets, after the opening one, and what follows. -/
def pointed? : Text → Option (Text × Text)
  | [] => none
  | '>' :: rest => some ([], rest)
  | '\\' :: c :: s =>
    if Text.isAsciiPunctuation c then
      (pointed? s).map fun (url, rest) => ('\\' :: c :: url, rest)
    else (pointed? (c :: s)).map fun (url, rest) => ('\\' :: url, rest)
  | c :: s =>
    if c = '<' || isEnding c then none
    else (pointed? s).map fun (url, rest) => (c :: url, rest)

def maxNesting : Nat := 32

/-- The source of a target without brackets, inside `depth` parentheses, and what follows. Blanks
and control characters end it. -/
def bare? (depth : Nat) : Text → Option (Text × Text)
  | [] => if depth = 0 then some ([], []) else none
  | '\\' :: c :: s =>
    if Text.isAsciiPunctuation c then
      (bare? depth s).map fun (url, rest) => ('\\' :: c :: url, rest)
    else (bare? depth (c :: s)).map fun (url, rest) => ('\\' :: url, rest)
  | c :: s =>
    if c.toNat ≤ 0x20 then if depth = 0 then some ([], c :: s) else none
    else if c = '(' then
      if maxNesting < depth then none
      else (bare? (depth + 1) s).map fun (url, rest) => (c :: url, rest)
    else if c = ')' then
      match depth with
      | 0 => some ([], c :: s)
      | depth + 1 => (bare? depth s).map fun (url, rest) => (c :: url, rest)
    else (bare? depth s).map fun (url, rest) => (c :: url, rest)

/-- A target, resolved, and what follows it. -/
def url? (s : Text) : Option (Text × Text) :=
  let source := match s with
    | '<' :: s => pointed? s
    | _ => bare? 0 s
  source.map fun (url, rest) => (resolve url, rest)

/-! ## Titles -/

/-- The character that closes a title which `c` opens. -/
def titleClosing? (c : Char) : Option Char :=
  if c = '"' || c = '\'' then some c else if c = '(' then some ')' else none

/-- The source of a title that `closing` closes, and what follows. After a line ending,
`resume?` finds where the text goes on, and blanks there are left out. -/
def titleBody? (resume? : Text → Option Text) (closing : Char) :
    Nat → Text → Option (Text × Text)
  | 0, _ => none
  | fuel + 1, s =>
    let go (read s : Text) : Option (Text × Text) :=
      (titleBody? resume? closing fuel s).map fun (title, rest) => (read ++ title, rest)
    match s with
    | [] => none
    | '\\' :: c :: s =>
      if Text.isAsciiPunctuation c then go ['\\', c] s else go ['\\'] (c :: s)
    | c :: s =>
      if c = closing then some ([], s)
      else if c = '(' && closing = ')' then none
      else if c = '\r' && s.head? = some '\n' then go ['\r'] s
      else if isEnding c then do
        let next ← resume? s
        go ['\n'] (next.dropWhile fun x => x = ' ' || x = '\t')
      else go [c] s

/-- A title between its delimiters, unresolved, and what follows it. -/
def title? (resume? : Text → Option Text) : Text → Option (Text × Text)
  | [] => none
  | c :: s => do titleBody? resume? (← titleClosing? c) (s.length + 1) s

/-! ## Labels -/

/-- What follows a run of blanks in a label; more than one line ending is too much. -/
def afterLabelGap? (resume? : Text → Option Text) (s : Text) : Option Text :=
  let s := s.dropWhile isGap
  match s with
  | [] => some []
  | _ :: _ =>
    match afterEnding? s with
    | none => some s
    | some next => do
      let next := (← resume? next).dropWhile isGap
      if next.head?.any isEnding then none else some next

/-- A label after its opening bracket, with each run of blanks as one space, and what follows the
closing bracket. -/
def labelBody? (resume? : Text → Option Text) : Nat → Text → Option (Text × Text)
  | 0, _ => none
  | fuel + 1, s =>
    let go (read s : Text) : Option (Text × Text) :=
      (labelBody? resume? fuel s).map fun (label, rest) => (read ++ label, rest)
    match s with
    | [] | '[' :: _ => none
    | ']' :: rest => some ([], rest)
    | '\\' :: c :: s => go ['\\', c] s
    | c :: s =>
      if isSpacing c then do go [' '] (← afterLabelGap? resume? (c :: s)) else go [c] s

/-- A label after its opening bracket, trimmed and not blank, and what follows it. -/
def label? (resume? : Text → Option Text) (s : Text) : Option (Text × Text) := do
  let (label, rest) ← labelBody? resume? (s.length + 1) s
  let label := Text.dropEndWhile (· = ' ') (label.dropWhile (· = ' '))
  if label.isEmpty then none else some (label, rest)

/-! ## Targets that link to themselves -/

/-- A link with a scheme after `<`, and what follows the `>`. -/
def schemeLink? (s : Text) : Option (Text × Text) :=
  let scheme := s.takeWhile fun c => c.isAlphanum || c = '.' || c = '-' || c = '+'
  let url := s.takeWhile fun c => 0x20 < c.toNat && c ≠ '<' && c ≠ '>'
  match s.head?.any Char.isAlpha, s.drop scheme.length, s.drop url.length with
  | true, ':' :: _, '>' :: rest =>
    if 2 ≤ scheme.length && scheme.length ≤ 32 then some (url, rest) else none
  | _, _, _ => none

def isMailChar (c : Char) : Bool :=
  c.isAlphanum || (".!#$%&'*+/=?^_\x60\x7b|\x7d~-" : Text).contains c

/-- Whether a label of a host name is well formed. -/
def isHostLabel (label : Text) : Bool :=
  !label.isEmpty && label.length ≤ 63 && label.all (fun c => c.isAlphanum || c = '-')
    && label.head? ≠ some '-' && label.getLast? ≠ some '-'

/-- A mail address after `<`, and what follows the `>`. -/
def mailLink? (s : Text) : Option (Text × Text) :=
  let box := s.takeWhile isMailChar
  match box, s.drop box.length with
  | _ :: _, '@' :: s =>
    let host := s.takeWhile fun c => c.isAlphanum || c = '-' || c = '.'
    match s.drop host.length with
    | '>' :: rest =>
      if (Text.splitOn "." host).all isHostLabel then some (box ++ '@' :: host, rest) else none
    | _ => none
  | _, _ => none

/-- A link to itself after `<`, and what follows the `>`. -/
def auto? (s : Text) : Option (Text × Text) := (schemeLink? s).or (mailLink? s)

end Link

end Galley.Markdown
