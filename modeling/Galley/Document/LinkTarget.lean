import Galley.Text.Blank

/-!
# Link targets

A target with a space in it does not make a link. In each `[text](target "title")` the target is
trimmed and its spaces are written `%20`; text and title are kept. The text and the target are as
short as possible and lie within a line; the title, with the blanks before it, is as long as
possible.
-/

namespace Galley.Document

/-- A link as written: the text, the target, and the title with the blanks before it. -/
structure Link where
  text : Text
  target : Text
  title : Text
deriving DecidableEq, Repr

namespace Link

def source (link : Link) : Text := "[" ++ link.text ++ "](" ++ link.target ++ link.title ++ ")"

/-- The text through the last `"` before a `)` on the current line, and what follows the `)`. -/
def throughQuote? : Text → Option (Text × Text)
  | [] => none
  | c :: s =>
    if c = '\n' then none
    else
      match throughQuote? s, c, s with
      | some (body, rest), _, _ => some (c :: body, rest)
      | none, '"', ')' :: rest => some (['"'], rest)
      | none, _, _ => none

/-- A title with the blanks before it, and what follows the `)` after it. -/
def title? (s : Text) : Option (Text × Text) :=
  match s.takeWhile Text.isBlank, s.dropWhile Text.isBlank with
  | [], _ => none
  | blanks, '"' :: s =>
    (throughQuote? s).map fun (body, rest) => (blanks ++ '"' :: body, rest)
  | _, _ => none

/-- The target and title of a link, and what follows the link. -/
def target? : Text → Option (Text × Text × Text)
  | [] => none
  | c :: s =>
    match title? (c :: s) with
    | some (title, rest) => some ([], title, rest)
    | none =>
      if c = ')' then some ([], [], s)
      else if c = '\n' then none
      else (target? s).map fun (target, rest) => (c :: target, rest)

/-- A link after its opening bracket, and what follows the link. -/
def afterBracket? : Text → Option (Link × Text)
  | [] => none
  | c :: s =>
    let here :=
      match c, s with
      | ']', '(' :: s => target? s
      | _, _ => none
    match here with
    | some (target, title, rest) => some (⟨[], target, title⟩, rest)
    | none =>
      if c = '\n' then none
      else (afterBracket? s).map fun (link, rest) => ({ link with text := c :: link.text }, rest)

/-- The link at the start of `s`. -/
def atStart? : Text → Option Link
  | '[' :: s => (afterBracket? s).map (·.1)
  | _ => none

/-- The link with its target trimmed and the spaces of the target encoded. -/
def encoded (link : Link) : Link :=
  { link with target := Text.replace " " "%20" (Text.trim link.target) }

/-- Encodes the targets after `skip` characters that belong to a link already found. -/
def encodeFrom : Nat → Text → Text
  | _, [] => []
  | skip + 1, _ :: s => encodeFrom skip s
  | 0, c :: s =>
    match atStart? (c :: s) with
    | some link => link.encoded.source ++ encodeFrom (link.source.length - 1) s
    | none => c :: encodeFrom 0 s

end Link

/-- The markup with the targets of its links encoded. -/
def encodeLinkTargets (markup : Text) : Text := Link.encodeFrom 0 markup

end Galley.Document
