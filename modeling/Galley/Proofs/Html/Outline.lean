import Galley.Proofs.Html.Element

/-!
# Outlines

The outline of a tag is its name and the keys of the attributes that do not depend on whether a
text is empty or a line is known. Two pages are alike if all their pieces are tags, with the same
outlines in the same order. The elements of a page are alike whatever texts they show.
-/

namespace Galley.Html

open Markdown (AlertKind)

/-- The keys that an element may lack: its line may be unknown, its title empty, and a code block
may have no language. -/
def optionalKeys : List Text := ["line", "title", "class"]

/-- The attributes that an element has in any case, without their values. -/
def Attribute.outline (as : List Attribute) : List Attribute :=
  (as.filter (!optionalKeys.contains ·.key)).map fun a => ⟨a.key, none⟩

/-- The tag without what depends on texts. -/
def Tag.outline (t : Tag) : Tag := { t with attributes := Attribute.outline t.attributes }

/-- The two texts consist of tags with the same outlines, beside characters. -/
def Alike (a b : Text) : Prop :=
  ∃ ts us, tags? a = some ts ∧ tags? b = some us ∧ ts.map Tag.outline = us.map Tag.outline

namespace Alike

variable {a a' b b' : Text}

theorem append (h : Alike a b) (h' : Alike a' b') : Alike (a ++ a') (b ++ b') := by
  obtain ⟨ts, us, hts, hus, heq⟩ := h
  obtain ⟨ts', us', hts', hus', heq'⟩ := h'
  refine ⟨ts ++ ts', us ++ us', tags?_append hts hts', tags?_append hus hus', ?_⟩
  rw [List.map_append, List.map_append, heq, heq']

theorem trim (h : Alike a b) : Alike (Text.trim a) (Text.trim b) := by
  obtain ⟨ts, us, hts, hus, heq⟩ := h
  exact ⟨ts, us, (tags?_trim a).trans hts, (tags?_trim b).trans hus, heq⟩

theorem of_isPlain (ha : isPlain a = true) (hb : isPlain b = true) : Alike a b :=
  ⟨[], [], tags?_of_isPlain ha, tags?_of_isPlain hb, rfl⟩

theorem refl_of_tags? {ts : List Tag} (h : tags? a = some ts) : Alike a a := ⟨ts, ts, h, h, rfl⟩

theorem of_isSome (a : Text) (h : (tags? a).isSome = true) : Alike a a := by
  obtain ⟨ts, hts⟩ := Option.isSome_iff_exists.1 h
  exact refl_of_tags? hts

theorem nil : Alike [] [] := of_isPlain rfl rfl

end Alike

/-! ## Attributes -/

namespace Attribute

theorem outline_append (as bs : List Attribute) : outline (as ++ bs) = outline as ++ outline bs := by
  simp [outline]

theorem outline_cons_of_not_contains {key : Text} (h : optionalKeys.contains key = false)
    (value : Option Text) (as : List Attribute) :
    outline (⟨key, value⟩ :: as) = ⟨key, none⟩ :: outline as := by
  rw [outline, List.filter_cons_of_pos (by rw [h]; rfl)]
  rfl

theorem outline_cons_of_contains {key : Text} (h : optionalKeys.contains key = true)
    (value : Option Text) (as : List Attribute) : outline (⟨key, value⟩ :: as) = outline as := by
  rw [outline, List.filter_cons_of_neg (by rw [h]; decide)]
  rfl

theorem outline_lineAttributes (line : Option Nat) : outline (lineAttributes line) = [] := by
  cases line with
  | none => rfl
  | some n => exact outline_cons_of_contains (by decide) _ []

theorem outline_titleAttributes (title : Text) : outline (titleAttributes title) = [] := by
  unfold titleAttributes
  split
  · rfl
  · exact outline_cons_of_contains (by decide) _ []

theorem outline_languageAttributes (language : Option Text) :
    outline (languageAttributes language) = [] := by
  cases language with
  | none => rfl
  | some lang => exact outline_cons_of_contains (by decide) _ []

end Attribute

/-! ## Elements -/

theorem alike_lineTag (name tail : Text) (hname : Tag.isName name = true)
    (htail : isPlain tail = true) (line line' : Option Nat) :
    Alike ("<" ++ name ++ lineAttr line ++ (">" ++ tail))
      ("<" ++ name ++ lineAttr line' ++ (">" ++ tail)) := by
  refine ⟨_, _, tags?_lineTag name tail hname htail line,
    tags?_lineTag name tail hname htail line', ?_⟩
  simp only [List.map_cons, Tag.outline, Attribute.outline_lineAttributes]

theorem alike_alertStart (kind : AlertKind) (line line' : Option Nat) :
    Alike (alertStart kind (lineAttr line)) (alertStart kind (lineAttr line')) := by
  have houtline : ∀ line, Attribute.outline (alertAttribute kind :: lineAttributes line) = [] :=
    fun line => (Attribute.outline_cons_of_contains (by decide) _ _).trans
      (Attribute.outline_lineAttributes line)
  refine ⟨_, _, tags?_alertStart kind line, tags?_alertStart kind line', ?_⟩
  simp only [List.map_cons, Tag.outline, houtline]

theorem alike_codeBlock (language language' : Option Text) (content content' : Text)
    (line line' : Option Nat) : Alike (codeBlock language content (lineAttr line))
      (codeBlock language' content' (lineAttr line')) := by
  refine ⟨_, _, tags?_codeBlock language content line, tags?_codeBlock language' content' line', ?_⟩
  simp only [List.map_cons, Tag.outline, Attribute.outline_lineAttributes,
    Attribute.outline_languageAttributes]

theorem alike_image (src alt title src' alt' title' : Text) :
    Alike (image src alt title) (image src' alt' title') := by
  have houtline : ∀ src alt title, Attribute.outline
      (.escaped "src" src :: titleAttributes title ++ [.escaped "alt" alt, ⟨"/", none⟩]) =
        [⟨"src", none⟩, ⟨"alt", none⟩, ⟨"/", none⟩] := by
    intro src alt title
    rw [List.cons_append, Attribute.outline_cons_of_not_contains (by decide),
      Attribute.outline_append, Attribute.outline_titleAttributes,
      List.nil_append, Attribute.outline_cons_of_not_contains (by decide)]
    rfl
  refine ⟨_, _, tags?_image src alt title, tags?_image src' alt' title', ?_⟩
  simp only [List.map_cons, Tag.outline, houtline]

theorem alike_math (source source' : Text) (display : Bool) :
    Alike (math source display) (math source' display) :=
  ⟨_, _, tags?_math source display, tags?_math source' display, rfl⟩

theorem alike_code (code code' : Text) :
    Alike ("<code>" ++ escape code ++ "</code>") ("<code>" ++ escape code' ++ "</code>") :=
  ⟨_, _, tags?_code code, tags?_code code', rfl⟩

end Galley.Html
