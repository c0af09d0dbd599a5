import Galley.Text.Alphanumeric

/-!
# Variables in settings

A setting that contains a reference to a variable in braces is expanded. A variable in braces can
have a default; a name right behind a dollar sign is a variable too; a doubled dollar sign stands
for one; and any other dollar sign for itself. What a variable says is not expanded again.
-/

namespace Galley.Expansion

/-- Whether `c` can stand in the name of a variable without braces. -/
def isNameChar (c : Char) : Bool := Text.isAlphanumeric c || c = '_'

/-- The two characters between the name of a variable and its default. -/
def separator : Text := ":-"

/-- A name with the default behind it, if there is one; a default needs a name before it. -/
def nameAndDefault (inside : Text) : Text × Option Text :=
  match Text.splitOn separator inside with
  | [] :: _ => (inside, none)
  | name :: piece :: pieces => (name, some (Text.joinWith separator (piece :: pieces)))
  | _ => (inside, none)

/-- The value of a variable or its default; without both, the name of the variable. -/
def value (valueOf? : Text → Option Text) (name : Text) (default? : Option Text) :
    Except Text Text :=
  match (valueOf? name).or default? with
  | some value => .ok value
  | none => .error name

/-- What a dollar sign stands for, with the number of characters behind it that belong to it. -/
def reference (valueOf? : Text → Option Text) (behind : Text) : Except Text (Text × Nat) :=
  match behind with
  | '\x7b' :: s =>
    let inside := s.takeWhile (· ≠ '\x7d')
    if inside.length = s.length then .ok ("$\x7b", 1)
    else
      let (name, default?) := nameAndDefault inside
      (value valueOf? name default?).map (·, inside.length + 2)
  | '$' :: _ => .ok ("$", 1)
  | s =>
    let name := s.takeWhile isNameChar
    if name.isEmpty then .ok ("$", 0)
    else (value valueOf? name none).map (·, name.length)

/-- Expands the references of a text, after `skip` characters that belong to one already
expanded. -/
def expandFrom (valueOf? : Text → Option Text) : Nat → Text → Except Text Text
  | _, [] => .ok []
  | skip + 1, _ :: s => expandFrom valueOf? skip s
  | 0, c :: s =>
    if c = '$' then do
      let (expanded, width) ← reference valueOf? s
      return expanded ++ (← expandFrom valueOf? width s)
    else return c :: (← expandFrom valueOf? 0 s)

/-- Expands a setting, or tells the first variable that has no value. -/
def expand (valueOf? : Text → Option Text) (setting : Text) : Except Text Text :=
  if Text.hasInfix "$\x7b" setting then expandFrom valueOf? 0 setting else .ok setting

end Galley.Expansion
