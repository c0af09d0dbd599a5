import Galley.Document.Options
import Galley.Document.Token
import Galley.Markdown.Document
import Galley.Yaml.Print

/-!
# Front matter

The front matter of a document is a YAML mapping in a metadata block at its start. It becomes the
attributes of the document: a scalar is one value, a sequence one value for each element, a
mapping its YAML text, and null no value. The attributes that are shown get an item each in a
container above the document, which holds a token for the values.
-/

namespace Galley.Document

/-- Why a text holds no attributes. -/
inductive FrontMatterError
  /-- The text is not YAML. -/
  | yaml
  /-- The text is YAML, but neither a mapping nor empty. -/
  | notMapping
deriving DecidableEq, Repr

/-- What is told of an error; how a text fails to be YAML is not told. -/
def FrontMatterError.message? : FrontMatterError → Option Text
  | yaml => none
  | notMapping => some "front matter is not a mapping"

/-- What the front matter of a document gives. -/
structure FrontMatter where
  attributes : Attributes := {}
  /-- The items of the shown attributes, with tokens for their values. -/
  container : Text := []
deriving DecidableEq, Repr

namespace FrontMatter

open Yaml (Value)

/-! ## Attributes -/

/-- The text of a value as one attribute value; null has none, and a collection that has no YAML
text has none. -/
def scalar? : Value → Option Text
  | .null => none
  | .bool b => some (if b then "true" else "false" : Text)
  | .number n => some n.toText
  | .string s => some s
  | .tagged _ value => scalar? value
  | value@(.sequence _) => value.toText?
  | value@(.mapping _) => value.toText?

/-- The attribute values of a value. -/
def values : Value → List Text
  | .sequence items => items.filterMap scalar?
  | .tagged _ value => values value
  | value => (scalar? value).toList

/-- The attributes of a mapping; a null key has no name and is left out. -/
def ofPairs (pairs : List (Value × Value)) : Attributes :=
  .ofList (pairs.filterMap fun (key, value) => (scalar? key).map fun name => (name, values value))

def parse (yaml : Text) : Except FrontMatterError Attributes :=
  match Value.ofText? yaml with
  | none => .error .yaml
  | some .null => .ok {}
  | some (.mapping pairs) => .ok (ofPairs pairs)
  | some _ => .error .notMapping

/-- The text of the metadata events at the start of a list. -/
def metadataText : List Markdown.Located → Text
  | ⟨.text s, _⟩ :: events => s ++ metadataText events
  | _ => []

/-- The text of the metadata block that a document begins with. -/
def metadata? (markup : Text) : Option Text :=
  match Markdown.parse { metadata := true } markup with
  | ⟨.start .metadata, _⟩ :: events => some (metadataText events)
  | _ => none

/-- The attributes of a document; there are none if its front matter cannot be read. -/
def extract (markup : Text) : Attributes :=
  match (metadata? markup).map parse with
  | some (.ok attrs) => attrs
  | _ => {}

/-! ## The container -/

/-- Whether an attribute is shown: its name is allowed, and a token can have it. -/
def isShown (allowed : AllowedKeys) (name : Text) : Bool :=
  allowed.allows name && Token.isIdentifier name

def item (name : Text) : Text :=
  "<div class='front-matter-item front-matter-container-" ++ name ++ "'>" ++ Token.written name
    ++ "\n</div>\n"

/-- The items of the shown attributes, in order. -/
def items (allowed : AllowedKeys) (attrs : Attributes) : Text :=
  (attrs.names.filter (isShown allowed)).flatMap item

/-- The container around items, if there are any. -/
def wrap (items : Text) : Text :=
  if items.isEmpty then []
  else "<div class='front-matter-container'>" ++ items ++ "</div>\n"

/-- Whether the front matter of a document is read at all: only if something is shown or a token
stands in the markup, and never in a presentation. -/
def isUsed (markup : Text) (allowed : AllowedKeys) (presentation : Bool) : Bool :=
  !presentation && Text.hasPrefix "---" markup && (!allowed.isEmpty || Token.occursIn markup)

/-- The front matter of a document. -/
def ofMarkup (markup : Text) (allowed : AllowedKeys) (presentation : Bool) : FrontMatter :=
  if isUsed markup allowed presentation then
    let attributes := extract markup
    { attributes, container := items allowed attributes }
  else {}

end FrontMatter

end Galley.Document
