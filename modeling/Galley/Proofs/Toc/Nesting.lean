import Galley.Proofs.Html.Element
import Galley.Proofs.Toc.Item

/-!
# A table of contents is nested

An item closes its link before the list nested in it begins, and that list before the item ends. So
the tags of a list are nested, and a table of contents closes every element it opens.
-/

namespace Galley.Toc

open Html (Balanced NestsOnly escape isPlain tags? tags?_append tags?_of_isPlain)

/-! ## Tags -/

theorem tags?_classTag (name value : Text) (hname : Html.Tag.isName name = true) :
    tags? ("<" ++ name ++ " class=\"" ++ escape value ++ "\">\n") =
      some [.start name [.escaped "class" value]] := by
  have hclass := Html.isSound_escaped "class" (by decide) value
  have hopen := Html.tags?_openTag name hname
    (show [.escaped "class" value].all Html.Attribute.isSound = true by
      rw [List.all_cons, hclass]; rfl)
  have hall := tags?_append hopen (tags?_of_isPlain (s := "\n") (by decide))
  simpa [Html.openTag, Html.Attribute.source] using hall

theorem tags?_link (entry : Entry) : tags? entry.link =
    some [.start "li" [], .start "a" [⟨"href", some ("#" ++ escape entry.id)⟩], .stop "a"] := by
  have hitem : tags? "<li>" = some [.start "li" []] := by decide
  have hend : tags? "</a>" = some [.stop "a"] := by decide
  have hhref : (⟨"href", some ("#" ++ escape entry.id)⟩ : Html.Attribute).isSound = true := by
    have hid := Html.all_isValueChar_escape entry.id
    have hvalue : ("#" ++ escape entry.id).all Html.isValueChar = true := by
      rw [List.all_append, hid]
      decide
    exact Html.isSound_of_key (by decide) hvalue
  have hopen := Html.tags?_openTag "a" (by decide)
    (show [⟨"href", some ("#" ++ escape entry.id)⟩].all Html.Attribute.isSound = true by
      rw [List.all_cons, hhref]; rfl)
  have hparts : entry.link = "<li>" ++ Html.openTag "a" [⟨"href", some ("#" ++ escape entry.id)⟩]
      ++ escape entry.title ++ "</a>" := by
    unfold Entry.link
    simp [Html.openTag, Html.Attribute.source]
  rw [hparts]
  have htitle := tags?_of_isPlain (Html.isPlain_escape entry.title)
  exact tags?_append (tags?_append (tags?_append hitem hopen) htitle) hend

/-! ## Lists -/

def listNames : List Text := ["ul", "li", "a"]

theorem openAfter?_link (entry : Entry) (opened : List Text) :
    Html.openAfter? [.start "li" [], .start "a" [⟨"href", some ("#" ++ escape entry.id)⟩], .stop "a"]
      opened = some (("li" : Text) :: opened) := by
  rw [Html.openAfter?_start (by decide), Html.openAfter?_start (by decide)]
  exact Html.openAfter?_stop "a" [] _

theorem nestsOnly_items (items : Items) : NestsOnly listNames items.html := by
  induction items with
  | nil => exact .of_isPlain rfl
  | cons entry nested rest hnested hrest =>
    have hinside : NestsOnly listNames nested.nestedHtml := by
      cases nested with
      | nil => exact .of_isPlain rfl
      | cons =>
        have hstart : tags? "\n<ul>\n" = some [.start "ul" []] := by decide
        exact .within hstart (by decide) (by decide) (by decide) hnested
    have hstop : tags? "</li>\n" = some [.stop "li"] := by decide
    have hitem : NestsOnly listNames (entry.link ++ nested.nestedHtml ++ "</li>\n") :=
      .between (tags?_link entry) (openAfter?_link entry) (by simp [listNames]) hstop (by decide) hinside
    exact hitem.append hrest

theorem nestsOnly_listHtml (options : Options) (items : Items) :
    NestsOnly listNames (listHtml options items) :=
  .within (tags?_classTag "ul" options.listClass (by decide)) (by decide) (by decide) (by decide)
    (nestsOnly_items items)

/-! ## The whole table -/

theorem nestsOnly_titleLine {title : Text} (h : isPlain title = true) :
    NestsOnly ["h1"] (titleLine title) := by
  unfold titleLine
  split
  · exact .of_isPlain rfl
  · have hstart : tags? "<h1>" = some [.start "h1" []] := by decide
    exact .within hstart (by decide) (by decide) (by decide) (.of_isPlain h)

theorem isPlain_shownTitle (options : Options) {titleHtml : Option Text}
    (h : titleHtml.all isPlain = true) : isPlain (titleHtml.getD (escape options.title)) = true := by
  cases titleHtml with
  | none => exact Html.isPlain_escape options.title
  | some title => exact h

/-- A table of contents closes every element it opens. -/
theorem balanced_render (entries : List Entry) (options : Options) {titleHtml : Option Text}
    (h : titleHtml.all isPlain = true) : Balanced (render entries options titleHtml) := by
  obtain ⟨items, -, hrender⟩ := exists_items_render entries options titleHtml
  rw [hrender, Text.when]
  split
  · intro opened
    have hdiv := Html.Walk.start (tags?_classTag "div" options.divClass (by decide)) (by decide) opened
    have htitle := (nestsOnly_titleLine (isPlain_shownTitle options h)).balanced ("div" :: opened)
    have hlist := (nestsOnly_listHtml options items).balanced ("div" :: opened)
    exact ((hdiv.append htitle).append hlist).append (Html.Walk.stop (by decide) opened)
  · exact Balanced.nil

end Galley.Toc
