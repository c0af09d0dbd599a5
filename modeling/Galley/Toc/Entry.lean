import Galley.Text

/-!
# Entries and options of a table of contents
-/

namespace Galley.Toc

/-- A heading as the table of contents lists it. -/
structure Entry where
  level : Nat
  title : Text
  id : Text
deriving DecidableEq, Repr

/-- How a table of contents is written. -/
structure Options where
  /-- The shallowest heading level listed. -/
  minLevel : Nat := 1
  /-- The deepest heading level listed. -/
  maxLevel : Nat := 3
  /-- The title above the list, unless a marker has its own. -/
  title : Text := "Table of contents"
  /-- The class of the enclosing element. -/
  divClass : Text := "mdv-table-of-contents toc"
  /-- The class of the outermost list. -/
  listClass : Text := "mdv-table-of-contents-list"
deriving DecidableEq, Repr

/-- Whether a heading of this level is listed. -/
def Options.lists (options : Options) (level : Nat) : Bool :=
  options.minLevel ≤ level && level ≤ options.maxLevel

end Galley.Toc
