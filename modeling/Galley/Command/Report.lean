import Galley.Config.Settings
import Galley.Document.AutoToc
import Galley.Document.Feature
import Galley.Document.FrontMatter
import Galley.Json
import Galley.PathName

/-!
# Reports

What converting a document would involve: its features, its attributes and whether they are shown,
and whether it gets a table of contents.
-/

namespace Galley.Command

/-- An attribute of a document. -/
structure ReportedAttribute where
  name : Text
  values : List Text
  shown : Bool
deriving DecidableEq, Repr

/-- What converting a document would involve. -/
structure Report where
  features : Document.Features
  attributes : List ReportedAttribute
  /-- Whether a table of contents is inserted. -/
  toc : Bool
deriving DecidableEq, Repr

namespace Report

def ofDocument (config : Config) (file markup : Text) : Report :=
  let options := config.options
  let features := Document.Features.detect markup
  { features
    attributes := (Document.FrontMatter.extract markup).entries.map fun (name, values) =>
      { name, values, shown := !features.presentation && options.allowedKeys.allows name }
    toc := options.autoToc.applies markup features.presentation (PathName.folderName? file) }

/-! ## For people -/

/-- The features by name. -/
def featureFlags (features : Document.Features) : List (Text × Bool) :=
  [("math", features.math), ("code", features.code), ("mermaid", features.mermaid),
    ("admonition", features.admonition), ("presentation", features.presentation)]

def featureNames (features : Document.Features) : List Text :=
  ((featureFlags features).filter (·.2)).map (·.1)

def featureLine (features : Document.Features) : Text :=
  let names := featureNames features
  "Features: " ++ (if names.isEmpty then "none" else Text.joinWith ", " names : Text)

def attributeLines (attributes : List ReportedAttribute) : List Text :=
  if attributes.isEmpty then ["Front matter: none"]
  else
    let lines : List Text :=
      attributes.map fun a => "  " ++ a.name ++ ": " ++ Text.joinWith ", " a.values
    let warning : List Text :=
      if attributes.any (·.shown) then [] else ["No front matter attribute is shown"]
    [("Front matter:" : Text)] ++ lines ++ warning

/-- The report as lines of text, under the name of the file. -/
def toText (report : Report) (file : Text) : Text :=
  let lines :=
    [file, featureLine report.features,
      "Table of contents: " ++ Text.when (!report.toc) "not " ++ "inserted"]
    ++ attributeLines report.attributes
  lines.flatMap (· ++ "\n")

/-! ## For programs -/

def toJson (report : Report) : Json :=
  .object
    [("features", .object ((featureFlags report.features).map fun (name, b) => (name, .bool b))),
      ("attributes", .array (report.attributes.map fun a =>
        .object [("name", .string a.name), ("values", .array (a.values.map .string)),
          ("shown", .bool a.shown)])),
      ("toc", .bool report.toc)]

end Report

end Galley.Command
