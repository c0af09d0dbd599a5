import Galley.Document.Slides
import Galley.Proofs.Html.TagName
import Galley.Proofs.Render.Rule

/-!
# Slides of nested pages

A page is cut at the text of a rule, wherever the rule stands. So the slides are nested exactly if
no rule stands in an element; then the presentation made of them is nested too.
-/

namespace Galley.Document

open Html (Part isNested isNestedByName isPlain namedTags? namedTags?_append openAfter?)
open Markdown (Event Forest)
open Render (Renderer)

namespace Slide

/-! ## The pieces of a page -/

theorem separator_eq : separator = (Part.tag Renderer.ruleTag).source := by decide

theorem forall_split_iff {html : Text} (h : isNested html = true) :
    (∀ slide ∈ split html, isNested slide.html = true) ↔
      ∀ piece ∈ Text.splitOn separator html, isNested piece = true := by
  unfold split
  cases hinfix : Text.hasInfix separator html with
  | true => simp [ofHtml]
  | false => simp [Text.splitOn_of_not_hasInfix hinfix, h]

/-! ## The presentation -/

/-- The elements of the page, read by their names, are closed. -/
def ClosedByName (html : Text) : Prop := ∃ ts, namedTags? html = some ts ∧ openAfter? ts [] = some []

theorem ClosedByName.append {a b : Text} (ha : ClosedByName a) (hb : ClosedByName b) :
    ClosedByName (a ++ b) := by
  obtain ⟨ts, hts, hopen⟩ := ha
  obtain ⟨us, hus, hopen'⟩ := hb
  refine ⟨ts ++ us, namedTags?_append hts hus, ?_⟩
  rw [Html.openAfter?_append, hopen]
  exact hopen'

theorem isNestedByName_iff {html : Text} : isNestedByName html = true ↔ ClosedByName html := by
  simp [isNestedByName, ClosedByName, Option.any_eq_true]

theorem namedTags?_slideStart {n : Text} (hn : isPlain n = true) (title : Bool) :
    namedTags? ("<!-- Presentation slide " ++ n ++ " --> <div class='slide_p" ++ n
      ++ (if title then " slide_type_title slide'><div class='slide_body slide_title'>"
        else " slide'><div class='slide_body'>" : Text)) =
      some [.start "div" [], .start "div" []] := by
  have hcomment : namedTags? ('<' :: ("!-- Presentation slide " ++ n ++ " --" ++ ['>'])) = some [] := by
    have hsuffix : Text.hasSuffix "--" (" Presentation slide " ++ n ++ " --") = true :=
      Text.hasSuffix_iff.2 ⟨" Presentation slide " ++ n ++ " ", by simp⟩
    rw [Html.namedTags?_bracketed (by simp [hn]; decide)]
    exact if_pos hsuffix
  have hslide : ∀ rest : Text, isPlain rest = true →
      namedTags? ('<' :: ("div class='slide_p" ++ n ++ rest ++ ['>'])) = some [.start "div" []] := by
    intro rest hrest
    rw [Html.namedTags?_bracketed (by simp [hn, hrest]; decide)]
    rfl
  have hblank : namedTags? " " = some [] := rfl
  cases title with
  | true =>
    have hbody : namedTags? "<div class='slide_body slide_title'>" = some [.start "div" []] := by decide
    have hall := namedTags?_append (namedTags?_append (namedTags?_append hcomment hblank)
      (hslide " slide_type_title slide'" (by decide))) hbody
    simpa using hall
  | false =>
    have hbody : namedTags? "<div class='slide_body'>" = some [.start "div" []] := by decide
    have hall := namedTags?_append (namedTags?_append (namedTags?_append hcomment hblank)
      (hslide " slide'" (by decide))) hbody
    simpa using hall

theorem closedByName_wrapped {slide : Slide} (number : Nat) (h : isNested slide.html = true) :
    ClosedByName (slide.wrapped number) := by
  obtain ⟨ts, hts, hopen⟩ := isNestedByName_iff.1 (Html.isNestedByName_of_isNested h)
  have hstart := namedTags?_slideStart (Html.isPlain_ofNat number) slide.title
  have hstop : namedTags? "</div></div>\n" = some [.stop "div", .stop "div"] := by decide
  have hinside : openAfter? ts ["div", "div"] = some (["div", "div"] : List Text) :=
    Html.openAfter?_frame hopen ["div", "div"]
  refine ⟨_, namedTags?_append (namedTags?_append hstart hts) hstop, ?_⟩
  rw [Html.openAfter?_append, Html.openAfter?_append]
  show (openAfter? ts ["div", "div"]).bind _ = _
  rw [hinside]
  rfl

theorem closedByName_wrapAll {slides : List Slide} (number : Nat)
    (h : ∀ slide ∈ slides, isNested slide.html = true) : ClosedByName (wrapAll number slides) := by
  induction slides generalizing number with
  | nil => exact ⟨[], rfl, rfl⟩
  | cons slide slides ih =>
    rw [List.forall_mem_cons] at h
    exact (closedByName_wrapped number h.1).append (ih (number + 1) h.2)

theorem isNestedByName_render {html : Text} (h : isNested html = true)
    (hslides : ∀ slide ∈ split html, isNested slide.html = true) :
    isNestedByName (render html) = true := by
  unfold render
  cases hsplit : split html with
  | nil => exact Html.isNestedByName_of_isNested h
  | cons first slides =>
    rw [hsplit] at hslides
    have hfirst := (List.forall_mem_cons.1 hslides).1
    rw [isNestedByName_iff]
    dsimp only
    split
    · exact (isNestedByName_iff.1 (Html.isNestedByName_of_isNested hfirst)).append
        (closedByName_wrapAll 1 (List.forall_mem_cons.1 hslides).2)
    · exact closedByName_wrapAll 1 hslides

/-! ## Documents -/

/-- Slides cut no element in two if no rule stands in an element, and only then. -/
theorem isNested_slides_iff (options : Toc.Options) (lineOf? : Option (Nat → Nat)) {f : Forest}
    (hfits : f.fits .blocks = true)
    (hevents : ∀ e ∈ f.events, e.isRaw = false ∧ e.isNoteMark = false) :
    ((∀ slide ∈ split (({} : Renderer).renderLocated options lineOf? f.located).1.html,
        isNested slide.html = true) ↔ f.rulesAtTop = true) ∧
      (f.rulesAtTop = true → isNestedByName
        (render (({} : Renderer).renderLocated options lineOf? f.located).1.html) = true) := by
  have hstraight : Renderer.Straight .blocks f := ⟨hfits, hevents⟩
  have hnested := Renderer.isNested_renderLocated options lineOf? hfits (hstraight.notesApart false)
    hstraight.onlyMarkers
  have hrules := Renderer.rulesOutside_renderLocated_iff options lineOf? hstraight
  revert hnested hrules
  generalize (({} : Renderer).renderLocated options lineOf? f.located).1.html = html
  intro hnested hrules
  obtain ⟨ts, hts, hopen⟩ := (Option.any_eq_true _ _).1 hnested
  have hopen : openAfter? ts [] = some [] := by simpa using hopen
  have hoff : Renderer.RulesOutside html ↔
      ∀ as bs, ts = as ++ Renderer.ruleTag :: bs → openAfter? as [] = some [] := by
    constructor
    · rintro ⟨us, hus, -, hall⟩
      obtain rfl := Option.some.inj (hus.symm.trans hts)
      exact hall
    · exact fun hall => ⟨ts, hts, hopen, hall⟩
  have hsplit : (∀ slide ∈ split html, isNested slide.html = true) ↔ f.rulesAtTop = true := by
    rw [forall_split_iff hnested, separator_eq,
      Html.forall_isNested_splitOn_iff (by decide) (fun opened => rfl) hts hopen, ← hoff, hrules]
  exact ⟨hsplit, fun htop => isNestedByName_render hnested (hsplit.2 htop)⟩

/-- Three slides: a title, a task in a quoted list, and a table of one cell. -/
def threeSlides : Forest :=
  .element (.heading 1 none) 0 9 (.leaf (.text "Title") 2 .nil) <|
  .leaf .rule 10 <|
  .element (.blockQuote (some .tip)) 14 40
    (.element (.list none) 16 40
      (.element .item 16 40 (.leaf (.taskMarker true) 18 <| .leaf (.text "a < b") 22 .nil) .nil)
      .nil) <|
  .leaf .rule 41 <|
  .element (.table [.none]) 45 60
    (.element .tableHead 45 55 (.element .tableCell 46 54 (.leaf (.code "x") 48 .nil) .nil) .nil) .nil

theorem isNested_threeSlides :
    threeSlides.fits .blocks = true ∧
      (∀ e ∈ threeSlides.events, e.isRaw = false ∧ e.isNoteMark = false) ∧
      ((∀ slide ∈ split (({} : Renderer).renderLocated {} none threeSlides.located).1.html,
        isNested slide.html = true) ↔ threeSlides.rulesAtTop = true) ∧
      (threeSlides.rulesAtTop = true → isNestedByName
        (render (({} : Renderer).renderLocated {} none threeSlides.located).1.html) = true) := by
  have hfits : threeSlides.fits .blocks = true := by decide
  have hevents : ∀ e ∈ threeSlides.events, e.isRaw = false ∧ e.isNoteMark = false := by decide
  exact ⟨hfits, hevents, isNested_slides_iff {} none hfits hevents⟩

/-- A rule between two paragraphs of a block quote. -/
def quotedRule : Forest :=
  .element (.blockQuote none) 0 15
    (.element .paragraph 2 4 (.leaf (.text "a") 2 .nil) <|
      .leaf .rule 8 <|
      .element .paragraph 13 15 (.leaf (.text "b") 13 .nil) .nil) .nil

/-- The block quote starts on the first slide and ends on the second. -/
theorem not_isNested_slides_quotedRule :
    quotedRule.fits .blocks = true ∧
      (∀ e ∈ quotedRule.events, e.isRaw = false ∧ e.isNoteMark = false) ∧
      (∃ slide ∈ split (({} : Renderer).renderLocated {} none quotedRule.located).1.html,
        isNested slide.html = false) ∧
      isNestedByName
        (render (({} : Renderer).renderLocated {} none quotedRule.located).1.html) = false := by
  refine ⟨by decide, by decide, ?_, by decide +kernel⟩
  exact ⟨ofHtml "<blockquote>\n<p>a</p>\n", by decide +kernel, by decide +kernel⟩

end Slide

end Galley.Document
