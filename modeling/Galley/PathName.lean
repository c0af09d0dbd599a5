import Galley.Text

/-!
# Path names

A path name is a list of names between slashes. Empty names and single dots say nothing; two dots
lead to the folder above.
-/

namespace Galley.PathName

/-- The names of a path that say something. -/
def names (path : Text) : List Text :=
  (Text.splitOn "/" path).filter fun name => !name.isEmpty && name ≠ ("." : Text)

/-- The name, unless it leads to the folder above. -/
def own? (name : Text) : Option Text := if name = (".." : Text) then none else some name

def fileName? (path : Text) : Option Text := (names path).getLast?.bind own?

/-- The name of the folder that the file lies in, as far as the path tells. -/
def folderName? (path : Text) : Option Text := (names path).dropLast.getLast?.bind own?

/-- The name of a file without its last extension; a dot at its start begins no extension. -/
def stem (name : Text) : Text :=
  match (name.drop 1).reverse.dropWhile (· ≠ '.') with
  | [] => name
  | _ :: front => name.take 1 ++ front.reverse

def absolute (names : List Text) : Text := names.flatMap ('/' :: ·)

/-- The folders around a place, from the place itself to the root. -/
def ancestors (names : List Text) : List (List Text) :=
  (List.range (names.length + 1)).reverse.map names.take

end Galley.PathName
