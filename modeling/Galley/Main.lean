import Galley.Command.Run

/-!
# The program

Everything that touches the system: the files and the environment are read, the plan is made from
what they say, and what the plan asks for is written.
-/

namespace Galley.Main

/-! ## Reading -/

/-- The reason of a failed access to a file. -/
def reason (e : IO.Error) : FileError :=
  match e with
  | .noFileOrDirectory .. => .notFound
  | .inappropriateType _ 21 _ => .isFolder
  | .inappropriateType _ _ _ => .notFolder
  | .invalidArgument _ _ "name too long" => .nameTooLong
  | .permissionDenied _ code details =>
    .other (s!"{details} (os error {code})").toList
  | e => .other (toString e).toList

def readText (path : Text) : IO (Except FileError Text) := do
  try
    let bytes ← IO.FS.readBinFile (String.ofList path)
    match String.fromUTF8? bytes with
    | some s => return .ok s.toList
    | none => return .error .notText
  catch e => return .error (reason e)

/-- A variable in the form `NAME=value`. -/
def variablePair (s : Text) : Text × Text :=
  let name := s.takeWhile (· ≠ '=')
  (name, s.drop (name.length + 1))

def environment : IO (List (Text × Text)) := do
  match ← readText "/proc/self/environ" with
  | .ok s => return (Text.splitOn "\x00" s).map variablePair
  | .error _ => return []

/-- What can be seen of the system, as far as the arguments ask for it. -/
def view (arguments : List Text) : IO SystemView := do
  let folder := PathName.names (← IO.currentDir).toString.toList
  let paths := match Command.Request.ofArguments arguments with
    | .ok request => request.paths folder
    | .error _ => []
  let readings ← paths.mapM fun path => return (path, ← readText path)
  return .ofReadings folder readings (← environment)

/-! ## Writing -/

def writeText (path text : Text) : IO (Except FileError Unit) := do
  try
    IO.FS.writeFile (String.ofList path) (String.ofList text)
    return .ok ()
  catch e => return .error (reason e)

def carryOut : Command.Plan → IO Command.Output
  | .tell output => return output
  | .write path text notes => return Command.written path notes (← writeText path text)

end Galley.Main

def main (arguments : List String) : IO UInt32 := do
  let arguments := arguments.map String.toList
  let here ← Galley.Main.view arguments
  let output ← Galley.Main.carryOut (Galley.Command.plan here arguments)
  IO.print (String.ofList output.stdout)
  IO.eprint (String.ofList output.stderr)
  return output.exit.toUInt32
