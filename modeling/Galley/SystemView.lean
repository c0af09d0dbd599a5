import Galley.FileTree

/-!
# The view of the system

What a program can see of the system that it runs in: a working folder, files, and variables.
-/

namespace Galley

/-- What a program can see. -/
structure SystemView where
  /-- The names that lead from the root to the working folder. -/
  folder : List Text
  /-- Whether a path leads to something. -/
  isPresent : Text → Bool
  /-- The text of the file that a path leads to. -/
  read : Text → Except FileError Text
  /-- The value of a variable of the environment. -/
  valueOf? : Text → Option Text

/-- What can be seen from a folder of a tree. -/
def FileTree.view (root : FileTree) (folder : List Text)
    (environment : List (Text × Text)) : SystemView where
  folder
  isPresent := root.isPresent folder
  read := root.read folder
  valueOf? name := environment.lookup name

/-- Whether something is there although it cannot be read. -/
def FileError.isPresent : FileError → Bool
  | notFound | notFolder | nameTooLong => false
  | isFolder | notText | other _ => true

/-- What can be seen after the paths of interest have been tried. -/
def SystemView.ofReadings (folder : List Text) (readings : List (Text × Except FileError Text))
    (environment : List (Text × Text)) : SystemView where
  folder
  isPresent path :=
    match readings.lookup path with
    | some (.ok _) => true
    | some (.error e) => e.isPresent
    | none => false
  read path := (readings.lookup path).getD (.error .notFound)
  valueOf? name := environment.lookup name

end Galley
