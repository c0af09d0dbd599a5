import Galley.Document.Options

/-!
# Configuration

The settings that a configuration file can have, those of the command line that win over them, and
the options of a conversion that follow.
-/

namespace Galley

/-- Which attributes are shown above a document. -/
inductive ShownKeys
  | list (names : List Text)
  /-- A pattern for names, of which only the star is known. -/
  | pattern (text : Text)
deriving DecidableEq, Repr

namespace ShownKeys

/-- Whether every attribute is shown. -/
def isWildcard : ShownKeys → Bool
  | list names => names.contains ("*" : Text)
  | pattern text => text = ("*" : Text)

def names : ShownKeys → List Text
  | list names => names
  | pattern _ => []

/-- The attributes that are shown. -/
def allowedKeys (keys : ShownKeys) : Document.AllowedKeys :=
  if keys.isWildcard then .all else .ofNames keys.names

end ShownKeys

structure Config where
  math : Bool := true
  darkMode : Bool := false
  lineNumbers : Bool := false
  newlineIsParagraph : Bool := false
  wordWrap : Bool := false
  toc : Document.TocSettings := {}
  shownKeys : ShownKeys := .list ["title", "tags", "date"]
  assetsBaseUrl : Text := "assets/"
  blogFolders : List Text := Document.defaultBlogFolders
  /-- The file that the settings were read from. -/
  path? : Option Text := none
deriving DecidableEq, Repr

/-- The switches of the command line; those that are not given leave the setting alone. -/
structure Overrides where
  math : Option Bool := none
  tocEnabled : Option Bool := none
  darkMode : Option Bool := none
  lineNumbers : Option Bool := none
  newlineIsParagraph : Option Bool := none
  wordWrap : Option Bool := none
deriving DecidableEq, Repr

namespace Config

/-- The settings with the switches of the command line. -/
def override (config : Config) (overrides : Overrides) : Config :=
  { config with
    math := overrides.math.getD config.math
    toc := { config.toc with enabled := overrides.tocEnabled.getD config.toc.enabled }
    darkMode := overrides.darkMode.getD config.darkMode
    lineNumbers := overrides.lineNumbers.getD config.lineNumbers
    newlineIsParagraph := overrides.newlineIsParagraph.getD config.newlineIsParagraph
    wordWrap := overrides.wordWrap.getD config.wordWrap }

def options (config : Config) : Document.Options where
  math := config.math
  toc := config.toc
  lineNumbers := config.lineNumbers
  darkMode := config.darkMode
  newlineIsParagraph := config.newlineIsParagraph
  wordWrap := config.wordWrap
  allowedKeys := config.shownKeys.allowedKeys
  assetsBaseUrl := config.assetsBaseUrl
  blogFolders := config.blogFolders

end Config

end Galley
