import Galley.Text

/-!
# Options

What a reader can choose for the rendering of a document.
-/

namespace Galley.Document

/-- Which attributes are shown above the document. -/
inductive AllowedKeys
  | all
  /-- The named ones; an empty list shows none. -/
  | only (names : List Text)
  | none
deriving DecidableEq, Repr

namespace AllowedKeys

/-- The choice that a list of names stands for: a star among them selects every attribute. -/
def ofNames (names : List Text) : AllowedKeys :=
  if names.contains ("*" : Text) then .all
  else if names.isEmpty then .none
  else .only names

def isEmpty : AllowedKeys → Bool
  | .all => false
  | .only names => names.isEmpty
  | .none => true

/-- Whether the attribute of this name is shown. -/
def allows : AllowedKeys → Text → Bool
  | .all, _ => true
  | .only names, name => names.contains name
  | .none, _ => false

end AllowedKeys

structure TocSettings where
  /-- Whether every document with headings gets one. -/
  enabled : Bool := false
  minLevel : Nat := 1
  maxLevel : Nat := 3
  title : Text := "Table of contents"
deriving DecidableEq, Repr

/-- The folders whose documents get a table of contents unless told otherwise. -/
def defaultBlogFolders : List Text := ["_posts", "blog", "post"]

/-- The settings of one conversion. -/
structure Options where
  /-- Whether formulas between dollar signs are math; otherwise dollar signs are escaped. -/
  math : Bool := true
  toc : TocSettings := {}
  /-- Whether code blocks have line numbers. -/
  lineNumbers : Bool := false
  darkMode : Bool := false
  /-- Whether every newline is a hard line break. -/
  newlineIsParagraph : Bool := false
  /-- Whether long lines of code are wrapped. -/
  wordWrap : Bool := false
  allowedKeys : AllowedKeys := .none
  /-- What stands before the path of every stylesheet and script. -/
  assetsBaseUrl : Text := "assets/"
  /-- The folders whose documents always get a table of contents. -/
  blogFolders : List Text := defaultBlogFolders
deriving DecidableEq, Repr

end Galley.Document
