import Galley.Config.Expansion
import Galley.Config.Reading
import Galley.Config.Validity
import Galley.SystemView

/-!
# Loading the configuration

The settings come from the file that is asked for, or else from the nearest configuration file in
the working folder or a folder around it; without any file they have their defaults. Two of them
can refer to variables of the environment. The settings of a file must be valid; the switches of
the command line come last.
-/

namespace Galley.Config

/-- Why a configuration cannot be loaded. -/
inductive LoadError
  /-- The file that was asked for does not exist. -/
  | notFound (path : Text)
  | file (error : FileError)
  /-- The file is not TOML, or a setting has a value of the wrong kind. -/
  | malformed
  | invalid (fault : Fault)
  /-- A setting refers to a variable that has no value. -/
  | unset (setting variableName : Text)
deriving DecidableEq, Repr

/-- What is told of an error; how a text fails to be a configuration is not told. -/
def LoadError.message : LoadError → Text
  | notFound path => "Configuration file not found: " ++ path
  | file error => "I/O error: " ++ error.message
  | malformed => "TOML parse error"
  | invalid fault => "Configuration error: " ++ fault.message
  | unset setting variableName =>
    "Environment variable error in " ++ setting ++ ": $\x7b" ++ variableName ++ "\x7d not set"

def fileName : Text := "mdview.toml"

/-- The paths on which a configuration file is looked for, the nearest first. -/
def candidates (folder : List Text) : List Text :=
  (PathName.ancestors folder).map fun names => PathName.absolute (names ++ [fileName])

/-- The file that the configuration comes from, if there is one. -/
def source? (here : SystemView) (asked? : Option Text) : Except LoadError (Option Text) :=
  match asked? with
  | some path => if here.isPresent path then .ok (some path) else .error (.notFound path)
  | none => .ok ((candidates here.folder).find? here.isPresent)

def expanded (here : SystemView) (setting value : Text) : Except LoadError Text :=
  (Expansion.expand here.valueOf? value).mapError (.unset setting)

/-- The configuration if it has no fault, and else the first one. -/
def validated (config : Config) : Except LoadError Config :=
  match config.faults with
  | [] => .ok config
  | fault :: _ => .error (.invalid fault)

def ofFile (here : SystemView) (path : Text) : Except LoadError Config := do
  let text ← (here.read path).mapError .file
  match ofToml? text with
  | none => .error .malformed
  | some config =>
    let assetsBaseUrl ← expanded here "assets.base_url" config.assetsBaseUrl
    let title ← expanded here "toc.title" config.toc.title
    validated
      { config with assetsBaseUrl, toc := { config.toc with title }, path? := some path }

def load (here : SystemView) (asked? : Option Text) (overrides : Overrides) :
    Except LoadError Config := do
  let config ← match ← source? here asked? with
    | some path => ofFile here path
    | none => .ok {}
  return config.override overrides

end Galley.Config
