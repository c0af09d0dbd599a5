import Galley.Config.Settings
import Galley.Text.Blank

/-!
# Valid configurations

Levels of a table of contents are levels of headings, in order; the base of asset paths and the
names of blog folders say something; and the only pattern for shown attributes is the star.
-/

namespace Galley.Config

/-- What is wrong with a configuration. -/
inductive Fault
  /-- The setting is not the level of a heading. -/
  | level (setting : Text)
  | levelOrder
  | pattern (text : Text)
  | emptyBaseUrl
  | emptyFolder
deriving DecidableEq, Repr

def Fault.message : Fault → Text
  | level setting => setting ++ " must be between 1 and 6"
  | levelOrder => "toc.min_level cannot exceed toc.max_level"
  | pattern text => "front_matter.shown_keys must be a list or \"*\", got \"" ++ text ++ "\""
  | emptyBaseUrl => "assets.base_url cannot be empty"
  | emptyFolder => "blog.folders cannot contain empty names"

def isHeadingLevel (level : Nat) : Bool := 1 ≤ level && level ≤ 6

/-- Whether the text has nothing but blanks. -/
def saysNothing (text : Text) : Bool := (Text.trim text).isEmpty

/-- The fault of the shown keys, if they have one. -/
def patternFault? : ShownKeys → Option Fault
  | .pattern text => if text = ("*" : Text) then none else some (.pattern text)
  | .list _ => none

/-- The faults of a configuration, in the order in which they are told. -/
def faults (config : Config) : List Fault :=
  (if isHeadingLevel config.toc.minLevel then [] else [.level "toc.min_level"])
  ++ (if isHeadingLevel config.toc.maxLevel then [] else [.level "toc.max_level"])
  ++ (if config.toc.minLevel ≤ config.toc.maxLevel then [] else [.levelOrder])
  ++ (patternFault? config.shownKeys).toList
  ++ (if saysNothing config.assetsBaseUrl then [.emptyBaseUrl] else [])
  ++ (if config.blogFolders.any saysNothing then [.emptyFolder] else [])

def isValid (config : Config) : Bool := config.faults.isEmpty

end Galley.Config
