import Galley.Document.FrontMatter
import Galley.Proofs.Document.Substitution

/-!
# The items of a container

An item of the container takes two lines, whatever the values of its attribute are: they have no
newline. The first line names the attribute, so the attributes with an item can be read off the
finished container (`itemNames_substitute_items`).
-/

namespace Galley.Document.FrontMatter

/-- How the line that opens an item begins. -/
def itemOpening : Text := "<div class='front-matter-item front-matter-container-"

/-- The attribute whose item the line opens. -/
def itemName? (line : Text) : Option Text :=
  (Text.dropPrefix? itemOpening line).map (·.takeWhile (· ≠ '\''))

/-- The attributes that have an item in a container, in order. -/
def itemNames (container : Text) : List Text := (Text.lines container).filterMap itemName?

section item

variable {name : Text} (attrs : Attributes)

theorem quote_not_mem (h : Token.isIdentifier name = true) : '\'' ∉ name := by
  have hall : name.all Token.isNameChar = true := (Bool.and_eq_true_iff.1 h).2
  exact fun hmem => absurd (List.all_eq_true.1 hall _ hmem) (by decide)

/-- The line that opens an item, with the values of its attribute. -/
def openingLine (name : Text) : Text :=
  itemOpening ++ (name ++ ('\'' :: '>' :: (Token.Piece.token name).substitute attrs))

theorem substitute_item (h : Token.isIdentifier name = true) (s : Text) :
    Token.substitute attrs (item name ++ s) =
      openingLine attrs name ++ '\n' :: ("</div>" ++ '\n' :: Token.substitute attrs s) := by
  have hbefore : '\x7b' ∉ itemOpening ++ name ++ "'>" := by
    have hopening : '\x7b' ∉ itemOpening := by decide
    have hname : '\x7b' ∉ name := Token.not_mem_of_isIdentifier (by decide) h
    have hend : '\x7b' ∉ ("'>" : Text) := by decide
    simp only [List.mem_append, not_or]
    exact ⟨⟨hopening, hname⟩, hend⟩
  have hbehind : '\x7b' ∉ ("\n</div>\n" : Text) := by decide
  have hitem : item name = itemOpening ++ name ++ "'>" ++ Token.written name ++ "\n</div>\n" := rfl
  calc Token.substitute attrs (item name ++ s)
    _ = Token.substitute attrs ((itemOpening ++ name ++ "'>") ++
        (Token.written name ++ ("\n</div>\n" ++ s))) := by
      rw [hitem]
      simp only [List.append_assoc]
    _ = (itemOpening ++ name ++ "'>") ++ ((Token.Piece.token name).substitute attrs ++
        ("\n</div>\n" ++ Token.substitute attrs s)) := by
      rw [Token.substitute_append hbefore, Token.substitute_written h,
        Token.substitute_append hbehind]
    _ = openingLine attrs name ++ '\n' :: ("</div>" ++ '\n' :: Token.substitute attrs s) := by
      unfold openingLine
      simp

theorem newline_not_mem_openingLine (h : Token.isIdentifier name = true) :
    '\n' ∉ openingLine attrs name := by
  have hopening : '\n' ∉ itemOpening := by decide
  have hname : '\n' ∉ name := Token.not_mem_of_isIdentifier (by decide) h
  have hvalues := Token.newline_not_mem_substitute hname attrs
  unfold openingLine
  simp only [List.mem_append, List.mem_cons, not_or]
  exact ⟨hopening, hname, by decide, by decide, hvalues⟩

theorem itemName?_openingLine (h : Token.isIdentifier name = true) :
    itemName? (openingLine attrs name ++ ['\n']) = some name := by
  have hdrop : Text.dropPrefix? itemOpening (openingLine attrs name ++ ['\n']) =
      some (name ++ ('\'' :: '>' :: (Token.Piece.token name).substitute attrs) ++ ['\n']) := by
    rw [Text.dropPrefix?_eq_some_iff, openingLine, List.append_assoc]
  have hname : ∀ c ∈ name, decide (c ≠ '\'') = true :=
    fun c hc => decide_eq_true fun heq => quote_not_mem h (heq ▸ hc)
  rw [itemName?, hdrop, Option.map_some, List.append_assoc, List.takeWhile_append_of_pos hname]
  exact congrArg some (List.append_nil name)

/-- The item of an attribute is read off, and reading goes on behind it. -/
theorem itemNames_substitute_item (h : Token.isIdentifier name = true) (s : Text) :
    itemNames (Token.substitute attrs (item name ++ s)) =
      name :: itemNames (Token.substitute attrs s) := by
  have hclosing : itemName? ("</div>" ++ ['\n']) = none := by decide
  rw [substitute_item attrs h, itemNames,
    Text.lines_append_newline (newline_not_mem_openingLine attrs h),
    Text.lines_append_newline (by decide), List.filterMap_cons_some (itemName?_openingLine attrs h),
    List.filterMap_cons_none hclosing]
  rfl

/-- The attributes that have an item are those that items were made for. -/
theorem itemNames_substitute_items {names : List Text}
    (h : ∀ name ∈ names, Token.isIdentifier name = true) :
    itemNames (Token.substitute attrs (names.flatMap item)) = names := by
  induction names with
  | nil => rfl
  | cons name names ih =>
    rw [List.forall_mem_cons] at h
    rw [List.flatMap_cons, itemNames_substitute_item attrs h.1, ih h.2]

end item

end Galley.Document.FrontMatter
