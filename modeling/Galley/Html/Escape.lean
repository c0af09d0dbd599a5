import Galley.Text

/-!
# Escaping

The five characters that have a meaning in HTML text or in a quoted attribute are written as
entities. Escaping works character by character, so it distributes over concatenation, and its
result holds none of `<`, `>` and the two quotes.
-/

namespace Galley.Html

/-- The entity of a character that needs one, and any other character as it is. -/
def escapeChar (c : Char) : Text :=
  if c = '&' then "&amp;"
  else if c = '<' then "&lt;"
  else if c = '>' then "&gt;"
  else if c = '"' then "&quot;"
  else if c = '\'' then "&#39;"
  else [c]

/-- The text with the five special characters written as entities. -/
def escape (s : Text) : Text := s.flatMap escapeChar

@[simp] theorem escape_nil : escape [] = [] := rfl

@[simp] theorem escape_append (s t : Text) : escape (s ++ t) = escape s ++ escape t :=
  List.flatMap_append

end Galley.Html
