import Galley.Proofs.Html.Element
import Galley.Render.Renderer

/-!
# The tags that rendering writes

The tags of lists, cells, headings, links and footnotes, next to those of `Html`. A placeholder of
a table of contents reads as a comment, so it has no tags.
-/

namespace Galley.Render

open Html (Attribute escape lineAttr lineAttributes tags? tags?_append)

/-! ## Lists, cells and links -/

def listName (start : Option Nat) : Text := if start.isSome then "ol" else "ul"

/-- The attribute of the number of the first item, unless it is one. -/
def startAttributes : Option Nat → List Attribute
  | none | some 1 => []
  | some n => [.number "start" n]

def cellName (inHead : Bool) : Text := if inHead then "th" else "td"

/-- The attribute of the alignment of a cell. -/
def TableCursor.styleAttributes (cursor : TableCursor) : List Attribute :=
  match cursor.alignments[cursor.column]? with
  | some .left => [⟨"style", some "text-align:left"⟩]
  | some .center => [⟨"style", some "text-align:center"⟩]
  | some .right => [⟨"style", some "text-align:right"⟩]
  | some .none | none => []

namespace Renderer

theorem all_isSound_startAttributes (start line : Option Nat) :
    (startAttributes start ++ lineAttributes line).all Attribute.isSound = true := by
  rw [List.all_append, Html.all_isSound_lineAttributes, Bool.and_true]
  unfold startAttributes
  split
  · rfl
  · rfl
  · rw [List.all_cons, Html.isSound_number "start" (by decide)]
    rfl

theorem isName_listName (start : Option Nat) : Html.Tag.isName (listName start) = true := by
  unfold listName
  split <;> decide

theorem listStart_eq (start line : Option Nat) : listStart start (lineAttr line) =
    Html.openTag (listName start) (startAttributes start ++ lineAttributes line) ++ "\n" := by
  rw [Html.openTag, Attribute.sources_append, Html.sources_lineAttributes]
  unfold listStart startAttributes
  split <;> simp [listName, Attribute.source]

theorem tags?_listStart (start line : Option Nat) :
    tags? (listStart start (lineAttr line)) =
      some [.start (listName start) (startAttributes start ++ lineAttributes line)] := by
  rw [listStart_eq]
  have hall := tags?_append
    (Html.tags?_openTag _ (isName_listName start) (all_isSound_startAttributes start line))
    (Html.tags?_of_isPlain (s := "\n") (by decide))
  exact hall

theorem sources_styleAttributes (cursor : TableCursor) :
    Attribute.sources cursor.styleAttributes = cursor.style := by
  unfold TableCursor.styleAttributes TableCursor.style
  cases cursor.alignments[cursor.column]? with
  | none => rfl
  | some alignment => cases alignment <;> rfl

theorem all_isSound_styleAttributes (cursor : TableCursor) :
    cursor.styleAttributes.all Attribute.isSound = true := by
  unfold TableCursor.styleAttributes
  split <;> decide

theorem isName_cellName (inHead : Bool) : Html.Tag.isName (cellName inHead) = true := by
  cases inHead <;> decide

theorem cellStart_eq (cursor : TableCursor) :
    cellStart cursor = Html.openTag (cellName cursor.inHead) cursor.styleAttributes := by
  unfold cellStart cellName Html.openTag
  rw [sources_styleAttributes]
  split <;> rfl

theorem tags?_cellStart (cursor : TableCursor) :
    tags? (cellStart cursor) = some [.start (cellName cursor.inHead) cursor.styleAttributes] := by
  rw [cellStart_eq]
  exact Html.tags?_openTag _ (isName_cellName cursor.inHead) (all_isSound_styleAttributes cursor)

theorem linkStart_eq (url title : Text) :
    ("<a href=\"" ++ escape url ++ "\"" ++ Html.titleAttr title ++ ">" : Text) =
      Html.openTag "a" (.escaped "href" url :: Html.titleAttributes title) := by
  simp [Html.openTag, Attribute.source, Html.sources_titleAttributes]

theorem all_isSound_linkAttributes (url title : Text) :
    (Attribute.escaped "href" url :: Html.titleAttributes title).all Attribute.isSound = true := by
  rw [List.all_cons, Html.isSound_escaped "href" (by decide), Html.all_isSound_titleAttributes]
  rfl

theorem tags?_linkStart (url title : Text) :
    tags? ("<a href=\"" ++ escape url ++ "\"" ++ Html.titleAttr title ++ ">") =
      some [.start "a" (.escaped "href" url :: Html.titleAttributes title)] := by
  rw [linkStart_eq]
  exact Html.tags?_openTag "a" (by decide) (all_isSound_linkAttributes url title)

/-! ## Headings -/

def headingName (level : Nat) : Text := "h" ++ Text.ofNat level

theorem isName_headingName (level : Nat) : Html.Tag.isName (headingName level) = true := by
  have hdigits := Text.all_isDigit_ofNat level
  rw [List.all_eq_true] at hdigits
  have hchars : (Text.ofNat level).all Html.isNameChar = true := by
    rw [List.all_eq_true]
    intro c hc
    simp [Html.isNameChar, hdigits c hc]
  rw [headingName, Html.Tag.isName, List.all_append, hchars]
  rfl

def headingAttributes (heading : Heading) : List Attribute :=
  .escaped "id" heading.id :: lineAttributes heading.line

def headingEnd (level : Nat) : Text :=
  '<' :: ((Html.Tag.stop (headingName level)).body ++ ['>']) ++ "\n"

theorem headingHtml_eq (heading : Heading) : headingHtml heading =
    Html.openTag (headingName heading.level) (headingAttributes heading)
      ++ Text.trim heading.html ++ headingEnd heading.level := by
  unfold headingHtml headingName headingAttributes headingEnd
  simp [Html.openTag, Attribute.source, Html.sources_lineAttributes, Html.Tag.body_stop, headingName]

theorem all_isSound_headingAttributes (heading : Heading) :
    (headingAttributes heading).all Attribute.isSound = true := by
  rw [headingAttributes, List.all_cons, Html.isSound_escaped "id" (by decide),
    Html.all_isSound_lineAttributes]
  rfl

theorem tags?_headingStart (heading : Heading) :
    tags? (Html.openTag (headingName heading.level) (headingAttributes heading)) =
      some [.start (headingName heading.level) (headingAttributes heading)] :=
  Html.tags?_openTag _ (isName_headingName heading.level) (all_isSound_headingAttributes heading)

theorem tags?_headingEnd (level : Nat) :
    tags? (headingEnd level) = some [.stop (headingName level)] := by
  have hname := isName_headingName level
  exact tags?_append
    (Html.tags?_tag (t := .stop (headingName level)) (by simpa [Html.Tag.isSound] using hname))
    (Html.tags?_of_isPlain (s := "\n") (by decide))

/-! ## Placeholders -/

theorem placeholder_eq (index : Nat) : placeholder index =
    (Html.Part.comment ("mdv-toc-placeholder-" ++ Text.ofNat index)).source := by
  unfold placeholder
  simp [Html.Part.source, Html.Part.commentBody]

theorem isPlain_placeholder (index : Nat) :
    Html.isPlain ("mdv-toc-placeholder-" ++ Text.ofNat index) = true := by
  rw [Html.isPlain_append, Html.isPlain_ofNat]
  decide

theorem visibleTags?_placeholder (index : Nat) :
    Html.visibleTags? (placeholder index) = some [] := by
  rw [placeholder_eq]
  exact Html.visibleTags?_comment (isPlain_placeholder index)

end Renderer

/-! ## Footnotes -/

namespace Footnotes

/-- An attribute whose value is a fixed text followed by a number. -/
abbrev anchor (key start : Text) (n : Nat) : Attribute := ⟨key, some (start ++ Text.ofNat n)⟩

theorem isSound_anchor (key start : Text) (hkey : (⟨key, none⟩ : Attribute).isSound = true)
    (hstart : start.all Html.isValueChar = true) (n : Nat) : (anchor key start n).isSound = true := by
  refine Html.isSound_of_key hkey ?_
  rw [List.all_append, hstart, Html.all_isValueChar_ofNat]
  rfl

abbrev supTag (n : Nat) : Html.Tag := .start "sup" [anchor "id" "fnref-" n]

abbrev referenceTag (n : Nat) : Html.Tag :=
  .start "a" [⟨"class", some "footnote-ref"⟩, anchor "href" "#fn-" n]

def referenceTags (n : Nat) : List Html.Tag := [supTag n, referenceTag n, .stop "a", .stop "sup"]

theorem referenceHtml_eq (n : Nat) : referenceHtml n =
    Html.openTag "sup" [anchor "id" "fnref-" n]
      ++ Html.openTag "a" [⟨"class", some "footnote-ref"⟩, anchor "href" "#fn-" n]
      ++ Text.ofNat n ++ "</a></sup>" := by
  unfold referenceHtml
  simp [Html.openTag, Attribute.source]

theorem tags?_referenceHtml (n : Nat) :
    tags? (referenceHtml n) =
      some [.start "sup" [anchor "id" "fnref-" n],
        .start "a" [⟨"class", some "footnote-ref"⟩, anchor "href" "#fn-" n],
        .stop "a", .stop "sup"] := by
  have hid := isSound_anchor "id" "fnref-" (by decide) (by decide) n
  have hhref := isSound_anchor "href" "#fn-" (by decide) (by decide) n
  have hclass : (⟨"class", some "footnote-ref"⟩ : Attribute).isSound = true := by decide
  have hsup := Html.tags?_openTag "sup" (by decide)
    (show [anchor "id" "fnref-" n].all Attribute.isSound = true by rw [List.all_cons, hid]; rfl)
  have ha := Html.tags?_openTag "a" (by decide)
    (show [⟨"class", some "footnote-ref"⟩, anchor "href" "#fn-" n].all Attribute.isSound = true by
      rw [List.all_cons, hclass, List.all_cons, hhref]; rfl)
  have hstop : tags? "</a></sup>" = some [.stop "a", .stop "sup"] := by decide
  rw [referenceHtml_eq]
  have hall := tags?_append (tags?_append (tags?_append hsup ha)
    (Html.tags?_of_isPlain (Html.isPlain_ofNat n))) hstop
  exact hall

abbrev backTag (n : Nat) : Html.Tag :=
  .start "a" [anchor "href" "#fnref-" n, ⟨"class", some "footnote-backref"⟩]

theorem tags?_backStart (n : Nat) :
    tags? ("<a href=\"#fnref-" ++ Text.ofNat n ++ "\" class=\"footnote-backref\">") =
      some [backTag n] := by
  have hparts : ("<a href=\"#fnref-" ++ Text.ofNat n ++ "\" class=\"footnote-backref\">" : Text) =
      Html.openTag "a" [anchor "href" "#fnref-" n, ⟨"class", some "footnote-backref"⟩] := by
    simp [Html.openTag, Attribute.source]
  have hhref := isSound_anchor "href" "#fnref-" (by decide) (by decide) n
  have hclass : (⟨"class", some "footnote-backref"⟩ : Attribute).isSound = true := by decide
  rw [hparts]
  exact Html.tags?_openTag "a" (by decide)
    (show [anchor "href" "#fnref-" n, ⟨"class", some "footnote-backref"⟩].all Attribute.isSound = true
      by rw [List.all_cons, hhref, List.all_cons, hclass]; rfl)

theorem tags?_backReference (n : Nat) :
    tags? (backReference n) = some [backTag n, .stop "a"] := by
  have hparts : backReference n =
      "<a href=\"#fnref-" ++ Text.ofNat n ++ "\" class=\"footnote-backref\">" ++
        "&#8617;</a>\n" := by
    unfold backReference
    simp
  have hstop : tags? "&#8617;</a>\n" = some [.stop "a"] := by decide
  rw [hparts]
  exact tags?_append (tags?_backStart n) hstop

abbrev itemTag (n : Nat) : Html.Tag := .start "li" [anchor "id" "fn-" n]

theorem tags?_itemStart (n : Nat) :
    tags? ("<li id=\"fn-" ++ Text.ofNat n ++ "\">\n") = some [itemTag n] := by
  have hparts : ("<li id=\"fn-" ++ Text.ofNat n ++ "\">\n" : Text) =
      Html.openTag "li" [anchor "id" "fn-" n] ++ "\n" := by
    simp [Html.openTag, Attribute.source]
  have hid := isSound_anchor "id" "fn-" (by decide) (by decide) n
  have hopen := Html.tags?_openTag "li" (by decide)
    (show [anchor "id" "fn-" n].all Attribute.isSound = true by rw [List.all_cons, hid]; rfl)
  rw [hparts]
  have hall := tags?_append hopen (Html.tags?_of_isPlain (s := "\n") (by decide))
  exact hall

theorem tags?_sectionStart :
    tags? "<div class=\"footnotes\">\n<hr class=\"footnotes-sep\" />\n<ol>\n" =
      some [.start "div" [⟨"class", some "footnotes"⟩],
        .start "hr" [⟨"class", some "footnotes-sep"⟩, ⟨"/", none⟩], .start "ol" []] := by
  decide

theorem tags?_sectionEnd : tags? "</ol>\n</div>\n" = some [.stop "ol", .stop "div"] := by decide

end Footnotes

end Galley.Render
