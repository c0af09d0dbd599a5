import Galley.Config.Settings
import Galley.Toml.Document

/-!
# Reading a configuration

A configuration file is a TOML document with a table for each group of settings. Settings that it
does not have keep their defaults, and entries that are no settings do not count. A group can also
be the list of its values, in order.
-/

namespace Galley.Config

open Toml (Value Entries)

/-! ## Values -/

def boolean? : Value → Option Bool
  | .boolean b => some b
  | _ => none

/-- The level that a setting has: one byte. -/
def level? : Value → Option Nat
  | .integer n => if 0 ≤ n ∧ n ≤ 255 then some n.toNat else none
  | _ => none

def text? : Value → Option Text
  | .string s => some s
  | _ => none

def texts? : Value → Option (List Text)
  | .array items => items.mapM text?
  | _ => none

def shownKeys? (value : Value) : Option ShownKeys :=
  ((texts? value).map .list).or ((text? value).map .pattern)

/-! ## Groups -/

/-- The entries of a group of settings with these keys. -/
def group? (keys : List Text) : Option Value → Option Entries
  | none => some []
  | some (.table _ entries) => some entries
  | some (.array items) => some (keys.zip items)
  | some (.tables items) => some (keys.zip (items.map (.table .header)))
  | some _ => none

/-- The setting under a key, or its default. -/
def setting? {α : Type} (read? : Value → Option α) (default : α) (key : Text)
    (entries : Entries) : Option α :=
  match entries.get? key with
  | none => some default
  | some value => read? value

def ofEntries? (entries : Entries) : Option Config := do
  let d : Config := {}
  let render ← group? ["math", "dark_mode", "line_numbers", "newline_is_paragraph", "word_wrap"]
    (entries.get? "render")
  let toc ← group? ["enabled", "min_level", "max_level", "title"] (entries.get? "toc")
  let frontMatter ← group? ["shown_keys"] (entries.get? "front_matter")
  let assets ← group? ["base_url"] (entries.get? "assets")
  let blog ← group? ["folders"] (entries.get? "blog")
  some {
    math := ← setting? boolean? d.math "math" render
    darkMode := ← setting? boolean? d.darkMode "dark_mode" render
    lineNumbers := ← setting? boolean? d.lineNumbers "line_numbers" render
    newlineIsParagraph := ← setting? boolean? d.newlineIsParagraph "newline_is_paragraph" render
    wordWrap := ← setting? boolean? d.wordWrap "word_wrap" render
    toc := {
      enabled := ← setting? boolean? d.toc.enabled "enabled" toc
      minLevel := ← setting? level? d.toc.minLevel "min_level" toc
      maxLevel := ← setting? level? d.toc.maxLevel "max_level" toc
      title := ← setting? text? d.toc.title "title" toc }
    shownKeys := ← setting? shownKeys? d.shownKeys "shown_keys" frontMatter
    assetsBaseUrl := ← setting? text? d.assetsBaseUrl "base_url" assets
    blogFolders := ← setting? texts? d.blogFolders "folders" blog }

def ofToml? (text : Text) : Option Config := (Toml.parse? text).bind ofEntries?

end Galley.Config
