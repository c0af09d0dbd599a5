import Galley.Proofs.Html.VisibleText
import Galley.Proofs.Render.Placeholder
import Galley.Proofs.Toc.Item
import Galley.Proofs.Toc.Marker

/-!
# Titles of markers

The title of a marker line is escaped once, when the line is rewritten, and after that it is only
copied: the comment of the marker is read back with the escaped title, whatever stands in it, and the
table of contents shows this title as its heading (`Marker.ofComment?_comment`).
-/

namespace Galley

namespace Html

open Text (Trimmed isBlank)

theorem escape_eq_nil_iff {s : Text} : escape s = [] ↔ s = [] := by
  constructor
  · intro h
    rw [← decode_escape s, h]
    rfl
  · rintro rfl
    rfl

theorem trimmed_escape {s : Text} (h : Trimmed s) : Trimmed (escape s) where
  head := by
    intro c hc
    by_contra hblank
    rw [Bool.not_eq_false] at hblank
    obtain ⟨t, ht⟩ := List.head?_eq_some_iff.1 (Option.mem_def.1 hc)
    obtain ⟨s', rfl, -⟩ := exists_of_escape_eq_cons hblank ht
    have hhead := h.head c rfl
    rw [hblank] at hhead
    cases hhead
  last := by
    intro c hc
    by_contra hblank
    rw [Bool.not_eq_false] at hblank
    obtain ⟨t, ht⟩ := List.getLast?_eq_some_iff.1 (Option.mem_def.1 hc)
    obtain ⟨s', rfl, -⟩ := exists_of_escape_eq_concat hblank ht
    have hlast := h.last c (by simp)
    rw [hblank] at hlast
    cases hlast

end Html

namespace Toc

namespace Marker

open Html (escape)
open Text (Trimmed isBlank)

/-! ## Titles -/

/-- The title of the marker, if it has one, is not empty and has no blanks at its ends. -/
def IsProper (marker : Marker) : Prop :=
  ∀ title, marker.title = some title → title ≠ [] ∧ Trimmed title

theorem ofTitle_of_ne_nil {title : Text} (h : title ≠ []) : ofTitle title = ⟨some title⟩ := by
  simp [ofTitle, h]

theorem isProper_ofTitle_trim (s : Text) : (ofTitle (Text.trim s)).IsProper := by
  intro title htitle
  by_cases hs : Text.trim s = []
  · simp [ofTitle, hs] at htitle
  · rw [ofTitle_of_ne_nil hs] at htitle
    obtain rfl := Option.some.inj htitle
    exact ⟨hs, Text.trimmed_trim s⟩

theorem isProper_of_ofLine? {line : Text} {marker : Marker} (h : ofLine? line = some marker) :
    marker.IsProper := by
  unfold ofLine? at h
  simp only at h
  split at h
  · obtain rfl := Option.some.inj h
    intro title htitle
    cases htitle
  · obtain ⟨rest, -, h⟩ := Option.bind_eq_some_iff.1 h
    obtain ⟨quoted, -, h⟩ := Option.bind_eq_some_iff.1 h
    obtain rfl := Option.some.inj h
    exact isProper_ofTitle_trim _

/-! ## The comment -/

/-- The comment ends where its only closing bracket stands. -/
theorem eq_nil_of_comment_eq {marker : Marker} {u v : Text}
    (h : marker.comment = u ++ commentEnd ++ v) : v = [] := by
  have hend : commentEnd = "--" ++ ['>'] := rfl
  have hinner : '>' ∉ marker.commentInner := by
    unfold commentInner
    cases marker.title with
    | none => decide
    | some title =>
      have htitle : '>' ∉ escape title := Html.not_mem_of_isPlain (Html.isPlain_escape title) (by decide)
      simp [htitle]
  have hstart : '>' ∉ commentStart := by decide
  have hcount : marker.comment.count '>' = 1 := by
    rw [comment_eq, List.count_append, List.count_append, List.count_eq_zero.2 hstart,
      List.count_eq_zero.2 hinner]
    rfl
  have hbehind : '>' ∉ v := by
    have hdash : commentEnd.count '>' = 1 := rfl
    rw [h, List.count_append, List.count_append, hdash] at hcount
    rw [← List.count_eq_zero]
    omega
  have hsplit : (commentStart ++ marker.commentInner ++ "--") ++ '>' :: [] = (u ++ "--") ++ '>' :: v := by
    rw [comment_eq, hend] at h
    simpa using h
  exact (Text.eq_of_append_cons_eq List.not_mem_nil hbehind hsplit).2.symm

theorem trim_commentInner {marker : Marker} {title : Text} (h : marker.title = some title)
    (hne : escape title ≠ []) (htrimmed : Trimmed (escape title)) :
    Text.trim marker.commentInner = ':' :: (" " ++ escape title) := by
  obtain ⟨t, c, ht⟩ := (List.eq_nil_or_concat (escape title)).resolve_left hne
  rw [List.concat_eq_append] at ht
  have hlast : isBlank c = false := htrimmed.last c (by simp [ht])
  have hbetween : Text.trim ([] ++ (':' :: (" " ++ t) ++ [c]) ++ [' ']) = _ :=
    Text.trim_between (" " ++ t) rfl (by decide) (by decide) hlast
  rw [commentInner, h]
  simp only [ht]
  simpa using hbetween

theorem ofComment?_of_isProper {marker : Marker} (h : marker.IsProper) {before after : Text}
    (hbefore : before.all isBlank = true) (hafter : after.all isBlank = true) :
    ofComment? (before ++ marker.comment ++ after) = some ⟨marker.title.map escape⟩ := by
  rw [ofComment?_eq marker hbefore hafter]
  cases htitle : marker.title with
  | none =>
    have hinner : marker.commentInner = " " := by rw [commentInner, htitle]
    rw [hinner]
    rfl
  | some title =>
    obtain ⟨hne, htrimmed⟩ := h title htitle
    have hescaped : escape title ≠ [] := fun hnil => hne (Html.escape_eq_nil_iff.1 hnil)
    have hkept := Html.trimmed_escape htrimmed
    have htrim : Text.trim (" " ++ escape title) = escape title := by
      have hspace : Text.trim (" " ++ escape title) = Text.trim (escape title) := by
        have hblank : isBlank ' ' = true := by decide
        simp [Text.trim, Text.trimStart, hblank]
      rw [hspace, hkept.trim_eq]
    have hcolon : Text.dropPrefix? ":" (':' :: (" " ++ escape title)) = some (" " ++ escape title) := rfl
    rw [trim_commentInner htitle hescaped hkept, List.isEmpty_cons, if_neg Bool.false_ne_true, hcolon,
      Option.bind_some, htrim, ofTitle_of_ne_nil hescaped]
    rfl

end Marker

/-! ## The heading of a table of contents -/

theorem exists_render_titled {entries : List Entry} {options : Options}
    (h : entries.any (options.lists ·.level) = true) {title : Text} (htitle : title ≠ []) :
    ∃ list : Text, render entries options (some title) =
      "<div class=\"" ++ Html.escape options.divClass ++ "\">\n" ++ ("<h1>" ++ title ++ "</h1>\n") ++
        list := by
  have hlisted : (entries.filter (options.lists ·.level)).isEmpty = false := by
    obtain ⟨entry, hentry, hlists⟩ := List.any_eq_true.1 h
    rw [List.isEmpty_eq_false_iff_exists_mem]
    exact ⟨entry, List.mem_filter.2 ⟨hentry, hlists⟩⟩
  have hline : titleLine title = "<h1>" ++ title ++ "</h1>\n" := by
    simp [titleLine, htitle]
  refine ⟨items options [] (entries.filter (options.lists ·.level)) ++ "</ul>\n" ++ "</div>\n", ?_⟩
  have hrender := render_eq entries options (some title) rfl
  unfold framed at hrender
  rw [hlisted, if_neg Bool.false_ne_true, Option.getD_some, hline] at hrender
  rw [hrender]
  simp only [List.append_assoc]

namespace Marker

open Html (escape)
open Render (Renderer)
open Text (isBlank)

/-- The comment of a marker line closes at its end only, and it is read back, among any blanks, as
the marker with its title escaped; rendering records this marker, and the table of contents has the
title, escaped once, as its heading. -/
theorem ofComment?_comment {line : Text} {marker : Marker} (h : ofLine? line = some marker) :
    (commentEnd <:+ marker.comment ∧ ∀ u v, marker.comment = u ++ commentEnd ++ v → v = []) ∧
      ∀ before after : Text, before.all isBlank = true → after.all isBlank = true →
        ofComment? (before ++ marker.comment ++ after) = some ⟨marker.title.map escape⟩ ∧
        ∀ (r : Renderer), r.rawHtml (before ++ marker.comment ++ after) =
          { r.write (Renderer.placeholder r.markers.length) with
            markers := r.markers ++ [⟨marker.title.map escape⟩] } ∧
        ∀ title, marker.title = some title → ∀ (entries : List Entry) (options : Options),
          entries.any (options.lists ·.level) = true →
          ∃ list : Text, render entries options (marker.title.map escape) =
            "<div class=\"" ++ escape options.divClass ++ "\">\n" ++
              ("<h1>" ++ escape title ++ "</h1>\n") ++ list := by
  have hproper := isProper_of_ofLine? h
  refine ⟨⟨?_, fun u v huv => eq_nil_of_comment_eq huv⟩, fun before after hbefore hafter => ?_⟩
  · rw [comment_eq]
    exact List.suffix_append _ _
  · have hread := ofComment?_of_isProper hproper hbefore hafter
    refine ⟨hread, fun r => ⟨Renderer.rawHtml_of_marker hread, ?_⟩⟩
    intro title htitle entries options hlisted
    have hne : escape title ≠ [] := fun hnil =>
      (hproper title htitle).1 (Html.escape_eq_nil_iff.1 hnil)
    rw [htitle]
    exact exists_render_titled hlisted hne

/-- A title that begins with a colon, ends with dashes and holds the end of a comment and quotes. -/
def closingTitle : Text := ": a --> 'b' & --"

theorem ofComment?_comment_closingTitle :
    ofLine? "\t[TOC]: #  \" : a --> 'b' & -- \" \r" = some ⟨some closingTitle⟩ ∧
      escape closingTitle = ": a --&gt; &#39;b&#39; &amp; --" ∧
      (∀ u v, (⟨some closingTitle⟩ : Marker).comment = u ++ commentEnd ++ v → v = []) ∧
      ofComment? (" " ++ (⟨some closingTitle⟩ : Marker).comment ++ "\r\n") =
        some ⟨some (escape closingTitle)⟩ ∧
      ∃ list : Text, render [⟨1, "A", "a"⟩] {} (some (escape closingTitle)) =
        "<div class=\"" ++ escape ({} : Options).divClass ++ "\">\n" ++
          ("<h1>" ++ escape closingTitle ++ "</h1>\n") ++ list := by
  have hline : ofLine? "\t[TOC]: #  \" : a --> 'b' & -- \" \r" = some ⟨some closingTitle⟩ := by
    decide
  obtain ⟨⟨-, hend⟩, hread⟩ := ofComment?_comment hline
  obtain ⟨hcomment, hrest⟩ := hread " " "\r\n" (by decide) (by decide)
  obtain ⟨-, hshown⟩ := hrest {}
  exact ⟨hline, by decide, hend, hcomment, hshown closingTitle rfl [⟨1, "A", "a"⟩] {} (by decide)⟩

end Marker

end Toc

end Galley
