import Galley.Markdown.Line

/-!
# Raw HTML

Tags, comments, processing instructions, declarations and character data that stand in markup as
they are, and the conditions under which a line begins a block of raw HTML.
-/

namespace Galley.Markdown.RawHtml

/-! ## Tags -/

def isUnquoted (c : Char) : Bool :=
  !(c = '\'' || c = '"' || c = ' ' || c = '=' || c = '>' || c = '<' || c = '\x60' || isEnding c)

/-- What follows blanks; line endings count as blanks only if `lines` holds. -/
def afterSpacing? (lines : Bool) (s : Text) : Option Text :=
  let rest := s.dropWhile isSpacing
  if lines || (s.takeWhile isSpacing).all isGap then some rest else none

def afterValue? (lines : Bool) : Text → Option Text
  | [] => none
  | c :: s =>
    if c = '"' || c = '\'' then
      let inner := s.takeWhile (· ≠ c)
      if lines || inner.all (!isEnding ·) then
        match s.drop inner.length with
        | [] => none
        | _ :: rest => some rest
      else none
    else if isUnquoted c then some (s.dropWhile isUnquoted)
    else none

def afterName? : Text → Option Text
  | [] => none
  | c :: s =>
    if c.isAlpha || c = '_' || c = ':' then
      some (s.dropWhile fun x => x.isAlphanum || x = '_' || x = '.' || x = ':' || x = '-')
    else none

/-- What follows an attribute, with or without a value. -/
def afterAttribute? (lines : Bool) (s : Text) : Option Text := do
  let named ← afterName? s
  match ← afterSpacing? lines named with
  | '=' :: rest => afterValue? lines (← afterSpacing? lines rest)
  | _ => some named

/-- What follows the attributes of a tag, each of which has blanks before it. -/
def afterAttributes? (lines : Bool) : Nat → Text → Option Text
  | 0, _ => none
  | fuel + 1, s => do
    let rest ← afterSpacing? lines s
    match rest with
    | [] => none
    | c :: _ =>
      if c = '/' || c = '>' then some rest
      else if rest.length = s.length then none
      else afterAttributes? lines fuel (← afterAttribute? lines rest)

def afterTagName? : Text → Option Text
  | [] => none
  | c :: s => if c.isAlpha then some (s.dropWhile fun x => x.isAlphanum || x = '-') else none

/-- What follows a tag at the start of a text; only if `lines` holds can it span lines. -/
def afterTag? (lines : Bool) : Text → Option Text
  | '<' :: '/' :: s => do
    match (← afterTagName? s).dropWhile isGap with
    | '>' :: rest => some rest
    | _ => none
  | '<' :: s => do
    match ← afterAttributes? lines (s.length + 1) (← afterTagName? s) with
    | '>' :: rest | '/' :: '>' :: rest => some rest
    | _ => none
  | _ => none

/-! ## Other raw HTML -/

/-- What follows the first occurrence of `p`. -/
def afterFirst? (p : Text) : Text → Option Text
  | [] => none
  | c :: s =>
    match Text.dropPrefix? p (c :: s) with
    | some rest => some rest
    | none => afterFirst? p s

/-- What follows a comment, an instruction, a declaration or character data. -/
def afterMarkup? (s : Text) : Option Text :=
  match Text.dropPrefix? "<!--" s with
  | some ('>' :: rest) => some rest
  | some ('-' :: '>' :: rest) => some rest
  | some rest => afterFirst? "-->" rest
  | none =>
    match Text.dropPrefix? "<![CDATA[" s with
    | some rest => afterFirst? "]]>" rest
    | none =>
      match s with
      | '<' :: '?' :: rest => afterFirst? "?>" rest
      | '<' :: '!' :: c :: rest => if c.isAlpha then afterFirst? ">" rest else none
      | _ => none

/-! ## Blocks -/

/-- Where a block of raw HTML ends. -/
inductive BlockEnd
  /-- Behind the line that contains this text. -/
  | containing (text : Text)
  /-- Before a blank line. -/
  | blankLine
deriving DecidableEq, Repr

/-- Elements whose content is raw; their block ends with their closing tag. -/
def rawElements : List String := ["pre", "style", "script", "textarea"]

/-- Elements that begin a block also when the rest of their line is not complete. -/
def blockElements : List String :=
  ["address", "article", "aside", "base", "basefont", "blockquote", "body", "caption", "center",
    "col", "colgroup", "dd", "details", "dialog", "dir", "div", "dl", "dt", "fieldset",
    "figcaption", "figure", "footer", "form", "frame", "frameset", "h1", "h2", "h3", "h4", "h5",
    "h6", "head", "header", "hr", "html", "iframe", "legend", "li", "link", "main", "menu",
    "menuitem", "nav", "noframes", "ol", "optgroup", "option", "p", "param", "search", "section",
    "summary", "table", "tbody", "td", "tfoot", "th", "thead", "title", "tr", "track", "ul"]

/-- The text without the differences of case of ASCII letters. -/
def lowerAscii (s : Text) : Text := s.map Char.toLower

/-- The closing tag that ends the block of a raw element which begins the text. -/
def rawElementEnd? (s : Text) : Option Text :=
  let name := s.takeWhile Char.isAlpha
  let closed :=
    match s.drop name.length with
    | [] => true
    | c :: _ => isSpacing c || c = '>'
  if closed && rawElements.contains (String.ofList (lowerAscii name)) then
    some ("</" ++ lowerAscii name ++ ">")
  else none

/-- The end of a block that begins with `<` and `s` and goes on over blank lines. -/
def longBlockEnd? (s : Text) : Option Text :=
  match rawElementEnd? s with
  | some closing => some closing
  | none =>
    if Text.hasPrefix "!--" s then some "-->"
    else if Text.hasPrefix "?" s then some "?>"
    else if Text.hasPrefix "![CDATA[" s then some "]]>"
    else
      match s with
      | '!' :: c :: _ => if c.isAlpha then some ">" else none
      | _ => none

/-- Whether `<` and `s` begin a block because of the name of the element. -/
def beginsBlockElement (s : Text) : Bool :=
  let s := (Text.dropPrefix? "/" s).getD s
  let name := s.takeWhile Char.isAlphanum
  let complete :=
    match s.drop name.length with
    | [] | '>' :: _ | '/' :: '>' :: _ => true
    | c :: _ => c = ' ' || c = '\t' || isEnding c
  complete && blockElements.contains (String.ofList (lowerAscii name))

/-- The end of a block of raw HTML that can follow a line of a paragraph directly. -/
def interruptingBlock? : Text → Option BlockEnd
  | '<' :: s =>
    match longBlockEnd? s with
    | some text => some (.containing text)
    | none => if beginsBlockElement s then some .blankLine else none
  | _ => none

/-- The end of the block of raw HTML that begins here. A line that holds nothing but one complete
tag begins a block too. -/
def block? (s : Text) : Option BlockEnd :=
  match interruptingBlock? s with
  | some ending => some ending
  | none => if (afterTag? false s).any isBlankLine then some .blankLine else none

end Galley.Markdown.RawHtml
