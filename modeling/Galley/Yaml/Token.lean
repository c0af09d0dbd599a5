import Galley.Yaml.Scalar

/-!
# YAML tokens

A YAML text as a sequence of tokens. Indentation becomes explicit: a column deeper than that of
the block around it starts a block, a shallower one ends blocks. Whether a scalar is a key shows
only at the colon behind it, so each place where a key may begin is remembered, and the colon
inserts the key, and the start of a mapping where one is due, at that place. A text that is not
YAML has no tokens.
-/

namespace Galley.Yaml

inductive Token
  | versionDirective (major minor : Nat)
  | tagDirective (handle stem : Text)
  | documentStart
  | documentEnd
  | blockSequenceStart
  | blockMappingStart
  | blockEnd
  | flowSequenceStart
  | flowSequenceEnd
  | flowMappingStart
  | flowMappingEnd
  | blockEntry
  | flowEntry
  | key
  | value
  | alias (name : Text)
  | anchor (name : Text)
  | tag (handle suffix : Text)
  | scalar (plain : Bool) (text : Text)
deriving DecidableEq, Repr

/-- A place where a key without an indicator may begin. -/
structure KeyPlace where
  /-- Whether the key is the only thing that can stand here. -/
  required : Bool
  /-- How many tokens stand before it. -/
  tokens : Nat
  cursor : Cursor
deriving DecidableEq, Repr

/-- What reading tokens keeps between two of them. -/
structure Scanner where
  cursor : Cursor
  /-- The tokens so far, last first. -/
  tokens : List Token := []
  /-- The column of the innermost block. -/
  indent : Int := -1
  /-- The columns of the blocks around it, innermost first. -/
  outer : List Int := []
  keyAllowed : Bool := true
  /-- The place of a possible key on each level of flow collections, innermost first; the last is
  that of the blocks. -/
  keys : List (Option KeyPlace) := [none]
deriving DecidableEq, Repr

namespace Scanner

def inFlow (s : Scanner) : Bool := 1 < s.keys.length

def push (s : Scanner) (t : Token) : Scanner := { s with tokens := t :: s.tokens }

/-- Adds a token behind the first `n` tokens. -/
def insert (s : Scanner) (n : Nat) (t : Token) : Scanner :=
  { s with tokens := s.tokens.insertIdx (s.tokens.length - n) t }

/-! ## Blocks -/

/-- Ends the blocks deeper than a column. -/
def closeBlocks (s : Scanner) (column : Int) : Scanner :=
  if s.inFlow then s
  else go s.tokens s.indent s.outer
where
  /-- The blocks around the innermost one are ended in turn. -/
  go (tokens : List Token) (indent : Int) : List Int → Scanner
    | [] => { s with tokens, indent, outer := [] }
    | next :: outer =>
      if column < indent then go (.blockEnd :: tokens) next outer
      else { s with tokens, indent, outer := next :: outer }

/-- Starts a block at a column behind the first `n` tokens, if the column is deeper than the
innermost block. -/
def openBlock (s : Scanner) (column : Nat) (n : Nat) (t : Token) : Scanner :=
  if s.inFlow || (column : Int) ≤ s.indent then s
  else { s.insert n t with indent := column, outer := s.indent :: s.outer }

/-! ## Possible keys -/

/-- The innermost place of a possible key is given up, which a required key does not allow. -/
def dropKey? (s : Scanner) : Option Scanner :=
  match s.keys with
  | some key :: keys => if key.required then none else some { s with keys := none :: keys }
  | _ => some s

/-- Remembers that a key may begin here. -/
def markKey? (s : Scanner) : Option Scanner :=
  if s.keyAllowed then do
    let required := !s.inFlow && s.indent = s.cursor.column
    let s ← s.dropKey?
    let place : KeyPlace := { required, tokens := s.tokens.length, cursor := s.cursor }
    some { s with keys := some place :: s.keys.tail }
  else some s

/-- Whether a key that begins at `place` can no longer end here: its colon has to follow on the
same line within 1024 characters. -/
def isStale (s : Scanner) (place : KeyPlace) : Bool :=
  place.cursor.line < s.cursor.line || place.cursor.index + 1024 < s.cursor.index

/-- Gives up the places of keys that can no longer end. -/
def dropStale? (s : Scanner) : Option Scanner := do
  let keys ← s.keys.mapM fun key =>
    match key with
    | some place =>
      if s.isStale place then (if place.required then none else some none) else some (some place)
    | none => some none
  some { s with keys }

/-! ## Between tokens -/

/-- Past blanks, comments and line breaks. A tab does not count where a block may begin. -/
def skipBlanks : Nat → Scanner → Scanner
  | 0, s => s
  | fuel + 1, s =>
    let c := s.cursor
    let c := if c.column = 0 ∧ c.peek = some '\ufeff' then c.next else c
    let tabs := s.inFlow || !s.keyAllowed
    let c := c.skipWhile fun x => x = ' ' || (tabs && x = '\t')
    let c := if c.peek = some '#' then c.skipToBreak else c
    if c.atBreak then
      skipBlanks fuel
        { s with cursor := c.nextLine, keyAllowed := s.keyAllowed || !s.inFlow }
    else { s with cursor := c }

/-! ## Directives, anchors and tags -/

/-- The decimal number that stands here; it has one to nine digits. -/
def number? (c : Cursor) : Option (Nat × Cursor) :=
  let digits := c.rest.takeWhile Char.isDigit
  if digits.isEmpty || 9 < digits.length then none
  else
    some (digits.foldl (fun n d => 10 * n + (d.toNat - '0'.toNat)) 0, c.skip digits.length)

def isTagChar (verbatim : Bool) (x : Char) : Bool :=
  isNameChar x || (";/?:@&=+$.!~*'()" : Text).contains x
    || (verbatim && (x = ',' || x = '[' || x = ']'))

/-- The characters of a tag; a percent sign and two hexadecimal digits stand for an ASCII
character. -/
def tagText? (verbatim : Bool) : Nat → Cursor → Option (Text × Cursor)
  | 0, c => some ([], c)
  | fuel + 1, c =>
    match c.rest with
    | [] => some ([], c)
    | x :: s =>
      if x = '%' then do
        let n ← Numeral.fixedHex? 2 s
        if 0x80 ≤ n then none
        else
          let (t, c) ← tagText? verbatim fuel (c.skip 3)
          some (Char.ofNat n :: t, c)
      else if isTagChar verbatim x then do
        let (t, c) ← tagText? verbatim fuel c.next
        some (x :: t, c)
      else some ([], c)

/-- The handle at the start of a tag: an exclamation mark, a name, and perhaps another mark. -/
def tagHandle? (c : Cursor) : Option (Text × Cursor) :=
  if c.peek = some '!' then
    let name := c.next.rest.takeWhile isNameChar
    let c := c.next.skip name.length
    if c.peek = some '!' then some ('!' :: name ++ "!", c.next) else some ('!' :: name, c)
  else none

/-- A tag as handle and suffix. -/
def tag? (inFlow : Bool) (c : Cursor) : Option (Token × Cursor) := do
  let fuel := c.rest.length
  let (token, c) ←
    if c.peekAt 1 = some '<' then do
      let (suffix, c) ← tagText? true fuel (c.skip 2)
      if suffix.isEmpty || c.peek ≠ some '>' then none else some (Token.tag [] suffix, c.next)
    else do
      let (handle, c) ← tagHandle? c
      let (suffix, c) ← tagText? false fuel c
      if 1 < handle.length && Text.hasSuffix "!" handle then
        if suffix.isEmpty then none else some (Token.tag handle suffix, c)
      else if handle.length = 1 && suffix.isEmpty then some (Token.tag [] "!", c)
      else some (Token.tag "!" (handle.tail ++ suffix), c)
  if endsToken c.peek || (inFlow && c.peek = some ',') then some (token, c) else none

/-- The name behind the sign of an anchor or alias. -/
def anchorName? (c : Cursor) : Option (Text × Cursor) :=
  let name := c.next.rest.takeWhile isNameChar
  let c := c.next.skip name.length
  let ends := endsToken c.peek || c.peek.any (("?:,]\x7d%@`" : Text).contains ·)
  if name.isEmpty || !ends then none else some (name, c)

/-- A directive, up to the end of its line. -/
def directive? (c : Cursor) : Option (Token × Cursor) := do
  let c := c.next
  let name := c.rest.takeWhile isNameChar
  let c := c.skip name.length
  if !endsToken c.peek then none
  else
    let c := c.skipWhile isSpaceOrTab
    let (token, c) ←
      if name = ("YAML" : Text) then do
        let (major, c) ← number? c
        if c.peek ≠ some '.' then none
        else
          let (minor, c) ← number? c.next
          some (Token.versionDirective major minor, c)
      else if name = ("TAG" : Text) then do
        let (handle, c) ← tagHandle? c
        if !c.atBlank || !(handle.length = 1 || Text.hasSuffix "!" handle) then none
        else
          let (stem, c) ← tagText? true c.rest.length (c.skipWhile isSpaceOrTab)
          if stem.isEmpty || !endsToken c.peek then none
          else some (Token.tagDirective handle stem, c)
      else none
    let c := c.skipWhile isSpaceOrTab
    let c := if c.peek = some '#' then c.skipToBreak else c
    if !c.atBreakOrEnd then none
    else some (token, if c.atBreak then c.nextLine else c)

/-! ## Tokens -/

/-- A token of `n` characters that stands here. -/
def take (s : Scanner) (n : Nat) (t : Token) : Scanner :=
  { s.push t with cursor := s.cursor.skip n }

def flowStart? (s : Scanner) (t : Token) : Option Scanner := do
  let s ← s.markKey?
  some { s.take 1 t with keys := none :: s.keys, keyAllowed := true }

def flowEnd? (s : Scanner) (t : Token) : Option Scanner := do
  let s ← s.dropKey?
  let keys := if s.inFlow then s.keys.tail else s.keys
  some { s.take 1 t with keys, keyAllowed := false }

/-- The dash before an item. -/
def blockEntry? (s : Scanner) : Option Scanner := do
  let s ←
    if s.inFlow then some s
    else if s.keyAllowed then
      some (s.openBlock s.cursor.column s.tokens.length .blockSequenceStart)
    else none
  let s ← s.dropKey?
  some { s.take 1 .blockEntry with keyAllowed := true }

/-- The question mark before a key. -/
def explicitKey? (s : Scanner) : Option Scanner := do
  let s ←
    if s.inFlow then some s
    else if s.keyAllowed then
      some (s.openBlock s.cursor.column s.tokens.length .blockMappingStart)
    else none
  let s ← s.dropKey?
  some { s.take 1 .key with keyAllowed := !s.inFlow }

/-- The colon before a value. If a key may have begun on this line, it did. -/
def value? (s : Scanner) : Option Scanner :=
  match s.keys with
  | some place :: keys =>
    let s := s.insert place.tokens .key
    let s := s.openBlock place.cursor.column place.tokens .blockMappingStart
    some { s.take 1 .value with keys := none :: keys, keyAllowed := false }
  | _ =>
    if s.inFlow then some { s.take 1 .value with keyAllowed := false }
    else if s.keyAllowed then
      let s := s.openBlock s.cursor.column s.tokens.length .blockMappingStart
      some { s.take 1 .value with keyAllowed := true }
    else none

/-- A token that may be a key or begin one. -/
def keyLike? (s : Scanner) (read : Scanner → Option (Token × Cursor)) : Option Scanner := do
  let s ← s.markKey?
  let (t, cursor) ← read s
  some { s.push t with cursor, keyAllowed := false }

def blockScalar? (s : Scanner) (literal : Bool) : Option Scanner := do
  let s ← s.dropKey?
  let (text, cursor) ← block? literal s.indent s.cursor
  some { s.push (.scalar false text) with cursor, keyAllowed := true }

/-- A plain scalar. A line break behind it allows a key. -/
def plainScalar? (s : Scanner) : Option Scanner := do
  let s ← s.markKey?
  let (text, cursor, broken) ← plain? s.inFlow (s.indent + 1) s.cursor
  some { s.push (.scalar true text) with cursor, keyAllowed := broken }

/-- Whether a plain scalar can begin with `x`, before `next`. -/
def beginsPlain (inFlow : Bool) (x : Char) (next : Option Char) : Bool :=
  if x = '-' then !next.any isSpaceOrTab
  else if x = '?' || x = ':' then !inFlow && !endsToken next
  else !(isSpaceOrTab x || isBreak x || (",[]\x7b\x7d#&*!|>'\"%@`" : Text).contains x)

/-- The end of the text ends all blocks. -/
def finish? (s : Scanner) : Option Scanner := (s.closeBlocks (-1)).dropKey?

/-- A line that separates documents. -/
def separator? (s : Scanner) : Option Scanner := do
  let s ← s.finish?
  let t := if s.cursor.peek = some '-' then Token.documentStart else .documentEnd
  some { s.take 3 t with keyAllowed := false }

/-- The token that begins with `x` here. -/
def token? (s : Scanner) (x : Char) : Option Scanner :=
  let next := s.cursor.peekAt 1
  if s.cursor.column = 0 ∧ x = '%' then do
    let s ← s.finish?
    let (t, cursor) ← directive? s.cursor
    some { s.push t with cursor, keyAllowed := false }
  else if s.cursor.atDocumentMark then s.separator?
  else if x = '[' then s.flowStart? .flowSequenceStart
  else if x = '\x7b' then s.flowStart? .flowMappingStart
  else if x = ']' then s.flowEnd? .flowSequenceEnd
  else if x = '\x7d' then s.flowEnd? .flowMappingEnd
  else if x = ',' then do
    let s ← s.dropKey?
    some { s.take 1 .flowEntry with keyAllowed := true }
  else if x = '-' ∧ endsToken next then s.blockEntry?
  else if x = '?' ∧ (s.inFlow ∨ endsToken next) then s.explicitKey?
  else if x = ':' ∧ (s.inFlow ∨ endsToken next) then s.value?
  else if x = '*' then
    s.keyLike? fun s => (anchorName? s.cursor).map fun (name, c) => (.alias name, c)
  else if x = '&' then
    s.keyLike? fun s => (anchorName? s.cursor).map fun (name, c) => (.anchor name, c)
  else if x = '!' then s.keyLike? fun s => tag? s.inFlow s.cursor
  else if x = '|' ∧ !s.inFlow then s.blockScalar? true
  else if x = '>' ∧ !s.inFlow then s.blockScalar? false
  else if x = '\'' ∨ x = '"' then
    s.keyLike? fun s =>
      (quoted? (x = '\'') s.cursor).map fun (text, c) => (.scalar false text, c)
  else if beginsPlain s.inFlow x next then s.plainScalar?
  else none

/-- Reads tokens to the end of the text. Each takes at least one character. -/
def run : Nat → Scanner → Option Scanner
  | 0, _ => none
  | fuel + 1, s => do
    let s ← (skipBlanks (s.cursor.rest.length + 1) s).dropStale?
    let s := s.closeBlocks s.cursor.column
    match s.cursor.peek with
    | none => s.finish?
    | some x => do
      let s ← s.token? x
      run fuel s

end Scanner

def tokens? (text : Text) : Option (List Token) :=
  let text := (Text.dropPrefix? "\ufeff" text).getD text
  if text.all isAllowed then
    (Scanner.run (text.length + 1) { cursor := { rest := text } }).map (·.tokens.reverse)
  else none

end Galley.Yaml
