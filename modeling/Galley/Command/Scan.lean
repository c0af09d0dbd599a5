import Galley.Text

/-!
# Scanning arguments

The arguments of a command are its options and one file. An option has a long name behind two
dashes, and may have a letter behind one dash; letters can be run together. A flag stands alone.
Any other option has a value, which follows as the next argument, behind an equals sign, or right
behind the letter. Two dashes alone end the options. Scanning goes from left to right and stops at
the first fault, or at a request for help.
-/

namespace Galley.Command

/-- Why arguments cannot be used. -/
inductive UsageError
  | missingCommand
  | unknownCommand (name : Text)
  | unknownOption (argument : Text)
  | repeatedOption (name : Text)
  | missingValue (name : Text)
  | invalidValue (name value : Text)
  | surplusValue (name value : Text)
  | surplusArgument (argument : Text)
  | conflict (first second : Text)
  | missingFile
deriving DecidableEq, Repr

def UsageError.message : UsageError → Text
  | missingCommand => "a command is missing"
  | unknownCommand name => "unknown command '" ++ name ++ "'"
  | unknownOption argument => "unknown option '" ++ argument ++ "'"
  | repeatedOption name => "the option '--" ++ name ++ "' can be given only once"
  | missingValue name => "the option '--" ++ name ++ "' needs a value"
  | invalidValue name value => "'" ++ value ++ "' is no value for the option '--" ++ name ++ "'"
  | surplusValue name value => "the option '--" ++ name ++ "' has no value such as '" ++ value ++ "'"
  | surplusArgument argument => "unexpected argument '" ++ argument ++ "'"
  | conflict first second =>
    "the options '--" ++ first ++ "' and '--" ++ second ++ "' exclude each other"
  | missingFile => "a file is missing"

/-- What an option does to a request of type `ρ`. -/
inductive Action (ρ : Type)
  | help
  | flag (set : ρ → ρ)
  /-- The value must be one that the option knows. -/
  | value (set? : Text → ρ → Option ρ)

structure Switch (ρ : Type) where
  name : Text
  letter? : Option Char := none
  action : Action ρ

/-- The request for help, which every command knows. -/
def Switch.help {ρ : Type} : Switch ρ := ⟨"help", some 'h', .help⟩

/-- The arguments up to some place. -/
structure Scan (ρ : Type) where
  request : ρ
  /-- The names of the options so far. -/
  given : List Text := []
  file? : Option Text := none

namespace Scan

variable {ρ : Type}

def note (scan : Scan ρ) (name : Text) (request : ρ) : Except UsageError (Scan ρ) :=
  if scan.given.contains name then .error (.repeatedOption name)
  else .ok { scan with request, given := name :: scan.given }

def noteValue (scan : Scan ρ) (name : Text) (set? : Text → ρ → Option ρ) (value : Text) :
    Except UsageError (Scan ρ) :=
  match set? value scan.request with
  | some request => scan.note name request
  | none => .error (.invalidValue name value)

def noteFile (scan : Scan ρ) (argument : Text) : Except UsageError (Scan ρ) :=
  if scan.file?.isSome then .error (.surplusArgument argument)
  else if argument.isEmpty then .error .missingFile
  else .ok { scan with file? := some argument }

/-- What a run of letters behind one dash comes to. -/
inductive Letters (ρ : Type)
  | done (scan : Scan ρ)
  | help
  /-- The last letter is an option whose value must follow. -/
  | needsValue (scan : Scan ρ) (name : Text) (set? : Text → ρ → Option ρ)

def letters (switches : List (Switch ρ)) : Scan ρ → Text → Except UsageError (Letters ρ)
  | scan, [] => .ok (.done scan)
  | scan, c :: s =>
    match switches.find? (·.letter? = some c) with
    | none => .error (.unknownOption ['-', c])
    | some switch =>
      match switch.action, s with
      | .help, _ => .ok .help
      | .flag set, s => do letters switches (← scan.note switch.name (set scan.request)) s
      | .value set?, [] => .ok (.needsValue scan switch.name set?)
      | .value set?, s =>
        (scan.noteValue switch.name set? ((Text.dropPrefix? "=" s).getD s)).map .done

/-- Whether an argument is taken for options, so that it is neither a value nor a file. -/
def isOption : Text → Bool
  | '-' :: _ :: _ => true
  | _ => false

/-- Scans arguments behind two dashes. -/
def files : Scan ρ → List Text → Except UsageError (Scan ρ)
  | scan, [] => .ok scan
  | scan, argument :: arguments => do files (← scan.noteFile argument) arguments

/-- Scans arguments; no result is a request for help. -/
def arguments (switches : List (Switch ρ)) :
    Scan ρ → List Text → Except UsageError (Option (Scan ρ))
  | scan, [] => .ok (some scan)
  | scan, argument :: rest =>
    match argument with
    | ['-', '-'] => (scan.files rest).map some
    | '-' :: '-' :: long =>
      let name := long.takeWhile (· ≠ '=')
      match switches.find? (·.name = name), long.drop name.length with
      | none, _ => .error (.unknownOption argument)
      | some ⟨_, _, .help⟩, [] => .ok none
      | some ⟨_, _, .flag set⟩, [] => do
        arguments switches (← scan.note name (set scan.request)) rest
      | some ⟨_, _, .value set?⟩, _ :: value => do
        arguments switches (← scan.noteValue name set? value) rest
      | some ⟨_, _, .value set?⟩, [] =>
        match rest with
        | [] => .error (.missingValue name)
        | value :: rest =>
          if isOption value then .error (.missingValue name)
          else do arguments switches (← scan.noteValue name set? value) rest
      | some _, _ :: value => .error (.surplusValue name value)
    | '-' :: c :: s => do
      match ← letters switches scan (c :: s) with
      | .help => .ok none
      | .done scan => arguments switches scan rest
      | .needsValue scan name set? =>
        match rest with
        | [] => .error (.missingValue name)
        | value :: rest =>
          if isOption value then .error (.missingValue name)
          else arguments switches (← scan.noteValue name set? value) rest
    | argument => do arguments switches (← scan.noteFile argument) rest

end Scan

end Galley.Command
