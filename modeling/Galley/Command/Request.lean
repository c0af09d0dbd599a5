import Galley.Command.Scan
import Galley.Config.Settings

/-!
# Requests

What the command line asks for: to render a document, to tell what it would involve, or to tell
about the program itself.
-/

namespace Galley.Command

/-- The shape of a rendered document. -/
inductive Format
  /-- A complete HTML document. -/
  | page
  /-- The body alone. -/
  | fragment
  /-- The body, the head and the statements to run, as JSON. -/
  | json
deriving DecidableEq, Repr

/-- Renders a document. -/
structure RenderRequest where
  file : Text := []
  config? : Option Text := none
  /-- The file that the rendered document is written to; it is printed if there is none. -/
  output? : Option Text := none
  format : Format := .page
  overrides : Overrides := {}
  verbose : Bool := false
deriving DecidableEq, Repr

/-- Tells what a document would involve. -/
structure CheckRequest where
  file : Text := []
  config? : Option Text := none
  json : Bool := false
  verbose : Bool := false
deriving DecidableEq, Repr

/-- What the command line asks for. -/
inductive Request
  | render (request : RenderRequest)
  | check (request : CheckRequest)
  /-- How the program, or one of its commands, is used. -/
  | help (command? : Option Text)
  | version
deriving DecidableEq, Repr

/-! ## Values of options -/

def path? (value : Text) : Option Text := if value.isEmpty then none else some value

def boolean? (value : Text) : Option Bool :=
  if value = ("true" : Text) then some true
  else if value = ("false" : Text) then some false
  else none

def Format.ofName? (name : Text) : Option Format :=
  if name = ("page" : Text) then some .page
  else if name = ("fragment" : Text) then some .fragment
  else if name = ("json" : Text) then some .json
  else none

/-! ## Commands -/

/-- An option that changes the overrides. -/
def RenderRequest.overriding (set : Overrides → Overrides) (r : RenderRequest) : RenderRequest :=
  { r with overrides := set r.overrides }

def RenderRequest.switches : List (Switch RenderRequest) :=
  [.help,
    ⟨"config", some 'c', .value fun v r => (path? v).map fun p => { r with config? := some p }⟩,
    ⟨"output", some 'o', .value fun v r => (path? v).map fun p => { r with output? := some p }⟩,
    ⟨"format", some 'f', .value fun v r =>
      (Format.ofName? v).map fun format => { r with format }⟩,
    ⟨"toc", none, .value fun v r =>
      (boolean? v).map fun b => r.overriding ({ · with tocEnabled := some b })⟩,
    ⟨"no-toc", none, .flag (overriding ({ · with tocEnabled := some false }))⟩,
    ⟨"math", none, .value fun v r =>
      (boolean? v).map fun b => r.overriding ({ · with math := some b })⟩,
    ⟨"no-math", none, .flag (overriding ({ · with math := some false }))⟩,
    ⟨"dark", none, .flag (overriding ({ · with darkMode := some true }))⟩,
    ⟨"wrap", none, .flag (overriding ({ · with wordWrap := some true }))⟩,
    ⟨"line-numbers", none, .flag (overriding ({ · with lineNumbers := some true }))⟩,
    ⟨"newline-paragraph", none, .flag (overriding ({ · with newlineIsParagraph := some true }))⟩,
    ⟨"verbose", some 'v', .flag ({ · with verbose := true })⟩]

/-- The options of rendering that exclude each other. -/
def RenderRequest.conflicts : List (Text × Text) := [("toc", "no-toc"), ("math", "no-math")]

def CheckRequest.switches : List (Switch CheckRequest) :=
  [.help,
    ⟨"config", some 'c', .value fun v r => (path? v).map fun p => { r with config? := some p }⟩,
    ⟨"json", none, .flag ({ · with json := true })⟩,
    ⟨"verbose", some 'v', .flag ({ · with verbose := true })⟩]

/-- The request of a command with its file; no result is a request for help. -/
def ofArguments {ρ : Type} (switches : List (Switch ρ)) (conflicts : List (Text × Text))
    (setFile : Text → ρ → ρ) (initial : ρ) (arguments : List Text) :
    Except UsageError (Option ρ) := do
  match ← Scan.arguments switches { request := initial } arguments with
  | none => .ok none
  | some scan =>
    match conflicts.find? fun (a, b) => scan.given.contains a && scan.given.contains b with
    | some (a, b) => .error (.conflict a b)
    | none =>
      match scan.file? with
      | none => .error .missingFile
      | some file => .ok (some (setFile file scan.request))

/-- The request for help behind its command. -/
def helpOn : List Text → Except UsageError Request
  | [] => .ok (.help none)
  | [name] =>
    if ([("render" : Text), "check", "help"]).contains name then .ok (.help (some name))
    else .error (.unknownCommand name)
  | _ :: name :: _ => .error (.unknownCommand name)

def globalOption (argument : Text) : Except UsageError Request :=
  match argument with
  | '-' :: 'h' :: _ => .ok (.help none)
  | '-' :: 'V' :: _ => .ok .version
  | _ =>
    if argument = ("--help" : Text) then .ok (.help none)
    else if argument = ("--version" : Text) then .ok .version
    else .error (.unknownOption argument)

def Request.ofArguments : List Text → Except UsageError Request
  | [] => .error .missingCommand
  | command :: arguments =>
    if command = ("render" : Text) then do
      let request? ← Command.ofArguments RenderRequest.switches RenderRequest.conflicts
        (fun file r => { r with file }) {} arguments
      return match request? with
        | some request => .render request
        | none => .help (some command)
    else if command = ("check" : Text) then do
      let request? ← Command.ofArguments CheckRequest.switches []
        (fun file r => { r with file }) {} arguments
      return match request? with
        | some request => .check request
        | none => .help (some command)
    else if command = ("help" : Text) then helpOn arguments
    else if Scan.isOption command then globalOption command
    else .error (.unknownCommand command)

end Galley.Command
