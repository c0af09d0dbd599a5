import Galley.Text.Alphanumeric
import Galley.Text.LowerCase

/-!
# Slugs

A slug names a heading in a link. It keeps the alphanumeric characters of the heading in lower
case and stands a single dash for each stretch of blanks, dashes and underscores between them.
-/

namespace Galley

/-- Whether `c` separates the words of a slug. -/
def Slug.isSeparator (c : Char) : Bool := Text.isBlank c || c = '-' || c = '_'

/-- The slug of the rest of a text. No dash may be written while `closed` holds, which is at the
start and after a dash. -/
def Slug.build (closed : Bool) : Text → Text
  | [] => []
  | c :: s =>
    if Text.isAlphanumeric c then Text.lowerChar c ++ Slug.build false s
    else if !closed && Slug.isSeparator c then '-' :: Slug.build true s
    else Slug.build closed s

/-- `s` without a dash at its end. -/
def Slug.dropDash (s : Text) : Text := (Text.dropSuffix? "-" s).getD s

def slug (s : Text) : Text := Slug.dropDash (Slug.build true (Text.trim s))

end Galley
