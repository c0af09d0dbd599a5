import Galley.PathName

/-!
# Files

A tree of folders and files in memory, with paths that lead through it: absolute ones from the
root, others from a working folder. Reading and writing fail as they do on a disk, and the reasons
have the texts that the system gives them.
-/

namespace Galley

/-- Why a file cannot be read or written. -/
inductive FileError
  | notFound
  | notFolder
  | isFolder
  | nameTooLong
  /-- The bytes of the file are not a text in UTF-8. -/
  | notText
  /-- Any other reason, with its text. -/
  | other (reason : Text)
deriving DecidableEq, Repr

def FileError.message : FileError → Text
  | notFound => "No such file or directory (os error 2)"
  | notFolder => "Not a directory (os error 20)"
  | isFolder => "Is a directory (os error 21)"
  | nameTooLong => "File name too long (os error 36)"
  | notText => "stream did not contain valid UTF-8"
  | other reason => reason

inductive FileTree
  /-- A file with its text, if it is one. -/
  | file (text? : Option Text)
  | folder (entries : List (Text × FileTree))
deriving Repr

namespace FileTree

/-- The part of a tree that some names lead to. -/
def at? : List Text → FileTree → Option FileTree
  | [], tree => some tree
  | name :: path, folder entries => (entries.lookup name).bind (at? path)
  | _ :: _, file _ => none

/-- Puts a tree under a name. -/
def put (name : Text) (tree : FileTree) (entries : List (Text × FileTree)) :
    List (Text × FileTree) :=
  entries.filter (·.1 ≠ name) ++ [(name, tree)]

/-- Puts a new tree where some names lead to; missing folders are made. -/
def insert : FileTree → List Text → FileTree → FileTree
  | _, [], new => new
  | folder entries, name :: path, new =>
    folder (put name (insert ((entries.lookup name).getD (folder [])) path new) entries)
  | file _, name :: path, new => folder [(name, insert (folder []) path new)]

/-! ## Paths -/

/-- The longest name, and the longest path, in bytes. -/
def nameLimit : Nat := 255

@[inherit_doc nameLimit]
def pathLimit : Nat := 4095

/-- Follows the names of a path from where some names lead to. -/
def walk (root : FileTree) : List Text → List Text → Except FileError (List Text)
  | place, [] => .ok place
  | place, name :: path =>
    match root.at? place with
    | none => .error .notFound
    | some (file _) => .error .notFolder
    | some (folder _) =>
      if name = [] ∨ name = ("." : Text) then walk root place path
      else if name = (".." : Text) then walk root place.dropLast path
      else if nameLimit < Text.byteLength name then .error .nameTooLong
      else walk root (place ++ [name]) path

/-- Where a path begins. -/
def start (workplace : List Text) (path : Text) : List Text :=
  if Text.hasPrefix "/" path then [] else workplace

/-- What a path leads to. -/
def resolve (root : FileTree) (workplace : List Text) (path : Text) : Except FileError FileTree :=
  if path.isEmpty then .error .notFound
  else if pathLimit < Text.byteLength path then .error .nameTooLong
  else do
    match root.at? (← root.walk (start workplace path) (Text.splitOn "/" path)) with
    | some tree => .ok tree
    | none => .error .notFound

def isPresent (root : FileTree) (workplace : List Text) (path : Text) : Bool :=
  (root.resolve workplace path).isOk

def read (root : FileTree) (workplace : List Text) (path : Text) : Except FileError Text := do
  match ← root.resolve workplace path with
  | folder _ => .error .isFolder
  | file none => .error .notText
  | file (some text) => .ok text

/-- The tree after the file that a path leads to was written, which may be new. -/
def write (root : FileTree) (workplace : List Text) (path text : Text) :
    Except FileError FileTree :=
  if path.isEmpty then .error .notFound
  else if pathLimit < Text.byteLength path then .error .nameTooLong
  else do
    let names := Text.splitOn "/" (Text.dropEndWhile (· = '/') path)
    let last := names.getLast?.getD []
    -- The empty name behind the last slash asks for a folder.
    let place ← root.walk (start workplace path) (names.dropLast ++ [[]])
    if Text.hasSuffix "/" path ∨ last = ("." : Text) ∨ last = (".." : Text) then .error .isFolder
    else if nameLimit < Text.byteLength last then .error .nameTooLong
    else
      match root.at? (place ++ [last]) with
      | some (folder _) => .error .isFolder
      | _ => .ok (root.insert (place ++ [last]) (file (some text)))

end FileTree

end Galley
