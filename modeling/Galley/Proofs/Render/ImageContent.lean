import Galley.Proofs.Render.HeadingContent
import Mathlib.Data.List.TakeWhile

/-!
# What an image contains

While an image is open, the texts inside it become its `alt`. All other inline content is written at
once, so it stands in front of the image. There is room for one image only: a further one inside
takes its place, and the outer one is lost with the texts that were taken for it
(`Renderer.adds_image`).
-/

namespace Galley.Markdown

/-! ## The events of an image -/

def Event.startsImage : Event → Bool
  | .start (.image _ _) => true
  | _ => false

def Event.isImageMark : Event → Bool
  | .start (.image _ _) | .stop .image => true
  | _ => false

def Event.isText : Event → Bool
  | .text _ => true
  | _ => false

/-- What the event adds to the text of an image. -/
def Event.altText : Event → Text
  | .text alt => alt
  | _ => []

/-- The events inside an image without the texts that are taken out of the page: those that stand
before any further image. -/
def uncaptured (es : List Event) : List Event :=
  (es.takeWhile (!·.startsImage)).filter (!·.isText) ++ es.dropWhile (!·.startsImage)

theorem uncaptured_of_forall {es : List Event} (hes : ∀ e ∈ es, e.startsImage = false) :
    uncaptured es = es.filter (!·.isText) := by
  have htake : es.takeWhile (!·.startsImage) = es := by
    rw [List.takeWhile_eq_self_iff]
    simpa using hes
  have hdrop : es.dropWhile (!·.startsImage) = [] := by
    rw [List.dropWhile_eq_nil_iff]
    simpa using hes
  rw [uncaptured, htake, hdrop, List.append_nil]

theorem uncaptured_append {before : List Event} (hbefore : ∀ e ∈ before, e.startsImage = false)
    (url title : Text) (behind : List Event) :
    uncaptured (before ++ .start (.image url title) :: behind) =
      before.filter (!·.isText) ++ .start (.image url title) :: behind := by
  have hpass : ∀ e ∈ before, (!e.startsImage) = true := by simpa using hbefore
  rw [uncaptured, List.takeWhile_append_of_pos hpass, List.dropWhile_append_of_pos hpass]
  simp [Event.startsImage]

theorem Event.startsImage_of_isImageMark {e : Event} (h : e.isImageMark = false) :
    e.startsImage = false := by
  cases e with
  | start tag =>
    cases tag with
    | image _ _ => cases h
    | _ => rfl
  | _ => rfl

theorem Event.text_or (e : Event) :
    (∃ text, e = .text text) ∨ e.isText = false ∧ e.altText = [] := by
  cases e with
  | text text => exact .inl ⟨text, rfl⟩
  | _ => exact .inr ⟨rfl, rfl⟩

theorem Tag.image_or (tag : Tag) : (∃ url title, tag = .image url title) ∨
    (Event.start tag).isImageMark = false ∧ (Event.stop tag.toEnd).isImageMark = false := by
  cases tag with
  | image url title => exact .inl ⟨url, title, rfl⟩
  | _ => exact .inr ⟨rfl, rfl⟩

theorem Content.isImageMark_of_admits {c : Content} {e : Event} (h : c.admits e = true) :
    e.isImageMark = false := by
  cases e with
  | start _ | stop _ => cases c <;> cases h
  | _ => rfl

/-- Events without an image, or those up to the first image, that image's start and the rest. In a
forest no image ends before one has started. -/
theorem Forest.image_cases {c : Content} {f : Forest} (hfits : f.fits c = true) :
    (∀ e ∈ f.events, e.isImageMark = false) ∨
      ∃ before url title behind, f.events = before ++ .start (.image url title) :: behind ∧
        ∀ e ∈ before, e.isImageMark = false := by
  induction f generalizing c with
  | nil => exact .inl fun e he => absurd he List.not_mem_nil
  | leaf e offset rest ih =>
    obtain ⟨hadmits, hrest⟩ := fits_leaf_iff.1 hfits
    have hmark := Content.isImageMark_of_admits hadmits
    rw [events_leaf]
    rcases ih hrest with hnone | ⟨before, url, title, behind, hsplit, hbefore⟩
    · exact .inl (List.forall_mem_cons.2 ⟨hmark, hnone⟩)
    · refine .inr ⟨e :: before, url, title, behind, ?_, List.forall_mem_cons.2 ⟨hmark, hbefore⟩⟩
      rw [hsplit, List.cons_append]
  | element tag start stop inner rest ihinner ihrest =>
    obtain ⟨-, hinner, hrest⟩ := fits_element_iff.1 hfits
    rw [events_element]
    rcases tag.image_or with ⟨url, title, rfl⟩ | ⟨hstart, hstop⟩
    · exact .inr ⟨[], url, title, _, rfl, fun e he => absurd he List.not_mem_nil⟩
    rcases ihinner hinner with hnone | ⟨before, url, title, behind, hsplit, hbefore⟩
    · rcases ihrest hrest with hnone' | ⟨before, url, title, behind, hsplit, hbefore⟩
      · refine .inl (List.forall_mem_cons.2 ⟨hstart, List.forall_mem_append.2 ⟨hnone, ?_⟩⟩)
        exact List.forall_mem_cons.2 ⟨hstop, hnone'⟩
      · refine .inr ⟨.start tag :: (inner.events ++ .stop tag.toEnd :: before), url, title, behind,
          ?_, List.forall_mem_cons.2 ⟨hstart, List.forall_mem_append.2 ⟨hnone, ?_⟩⟩⟩
        · rw [hsplit, List.cons_append, List.append_assoc, List.cons_append]
        · exact List.forall_mem_cons.2 ⟨hstop, hbefore⟩
    · refine .inr ⟨.start tag :: before, url, title, behind ++ .stop tag.toEnd :: rest.events, ?_,
        List.forall_mem_cons.2 ⟨hstart, hbefore⟩⟩
      rw [hsplit, List.cons_append, List.append_assoc, List.cons_append]

end Galley.Markdown

namespace Galley.Render

open Html (escape)
open Markdown (Content Event Forest Tag TagEnd uncaptured)

/-! ## Inline content around images -/

namespace InlineState

def afterAll (s : InlineState) (es : List Event) : InlineState := es.foldl after s

/-- What an event of inline content writes to the page, where no heading is open. -/
def onPage (s : InlineState) (e : Event) : Text := s.html e ++ e.aside

theorem collect_append (f : InlineState → Event → Text) (s : InlineState) (es es' : List Event) :
    s.collect f (es ++ es') = s.collect f es ++ (s.afterAll es).collect f es' := by
  induction es generalizing s with
  | nil => rfl
  | cons e es ih =>
    rw [List.cons_append, collect, collect, ih, List.append_assoc]
    rfl

theorem collect_congr {f g : InlineState → Event → Text} {es : List Event}
    (h : ∀ e ∈ es, ∀ s, f s e = g s e) {s : InlineState} : s.collect f es = s.collect g es := by
  induction es generalizing s with
  | nil => rfl
  | cons e es ih =>
    rw [List.forall_mem_cons] at h
    rw [collect, collect, h.1, ih h.2]

theorem eq_nil_of_collect_eq_nil {f : InlineState → Event → Text} {es : List Event}
    (hes : ∀ e ∈ es, ∀ s, f s e ≠ []) {s : InlineState} (h : s.collect f es = []) : es = [] := by
  cases es with
  | nil => rfl
  | cons e es =>
    rw [collect, List.append_eq_nil_iff] at h
    exact absurd h.1 (hes e List.mem_cons_self s)

/-- An image shows in what `f` writes only where texts are taken out and where it is written. -/
structure WritesImages (f : InlineState → Event → Text) : Prop where
  text : ∀ {s : InlineState} (text : Text), s.image.isSome = true → f s (.text text) = []
  start : ∀ (s : InlineState) (url title : Text), f s (.start (.image url title)) = []
  stop : ∀ s : InlineState, f s (.stop .image) = s.stopHtml .image
  other : ∀ {e : Event} (fs : Footnotes) (image? : Option OpenImage), e.isText = false →
    e.isImageMark = false → f ⟨fs, image?⟩ e = f ⟨fs, none⟩ e

theorem WritesImages.html : WritesImages InlineState.html where
  text := fun text h => if_pos h
  start := fun _ _ _ => rfl
  stop := fun _ => rfl
  other := by
    intro e fs image? htext hmark
    cases e with
    | text _ => cases htext
    | stop tag =>
      cases tag with
      | image => cases hmark
      | _ => rfl
    | _ => rfl

theorem WritesImages.onPage : WritesImages InlineState.onPage where
  text := fun text h => (List.append_nil _).trans (WritesImages.html.text text h)
  start := fun _ _ _ => rfl
  stop := fun _ => List.append_nil _
  other := fun fs image? htext hmark =>
    congrArg (· ++ Event.aside _) (WritesImages.html.other fs image? htext hmark)

theorem exists_after_eq {e : Event} (htext : e.isText = false) (hmark : e.isImageMark = false)
    (fs : Footnotes) : ∃ fs', ∀ image?, (⟨fs, image?⟩ : InlineState).after e = ⟨fs', image?⟩ := by
  cases e with
  | text _ => cases htext
  | footnoteReference label => exact ⟨fs.refer label, fun _ => rfl⟩
  | start tag =>
    cases tag with
    | image _ _ => cases hmark
    | _ => exact ⟨fs, fun _ => rfl⟩
  | stop tag =>
    cases tag with
    | image => cases hmark
    | _ => exact ⟨fs, fun _ => rfl⟩
  | _ => exact ⟨fs, fun _ => rfl⟩

section image

variable {f : InlineState → Event → Text}

/-- Up to a further image, the texts are taken out, and everything else is as it is without the
image. -/
theorem collect_captured (hf : WritesImages f) {es : List Event}
    (hes : ∀ e ∈ es, e.isImageMark = false) (fs : Footnotes) (image : OpenImage) :
    (⟨fs, some image⟩ : InlineState).collect f es =
        (⟨fs, none⟩ : InlineState).collect f (es.filter (!·.isText)) ∧
      ∃ fs', (⟨fs, none⟩ : InlineState).afterAll (es.filter (!·.isText)) = ⟨fs', none⟩ ∧
        (⟨fs, some image⟩ : InlineState).afterAll es =
          ⟨fs', some { image with alt := image.alt ++ es.flatMap Event.altText }⟩ := by
  induction es generalizing fs image with
  | nil => exact ⟨rfl, fs, rfl, by simp [afterAll]⟩
  | cons e es ih =>
    rw [List.forall_mem_cons] at hes
    rcases e.text_or with ⟨text, rfl⟩ | ⟨htext, halt⟩
    · obtain ⟨hcollect, fs', hoff, hon⟩ := ih hes.2 fs { image with alt := image.alt ++ text }
      have hkept : (Event.text text :: es).filter (!·.isText) = es.filter (!·.isText) := rfl
      rw [hkept, collect, hf.text text rfl]
      refine ⟨hcollect, fs', hoff, hon.trans ?_⟩
      rw [List.flatMap_cons, ← List.append_assoc]
      rfl
    · obtain ⟨fs₁, hafter⟩ := exists_after_eq htext hes.1 fs
      obtain ⟨hcollect, fs', hoff, hon⟩ := ih hes.2 fs₁ image
      have hkept : (e :: es).filter (!·.isText) = e :: es.filter (!·.isText) := by simp [htext]
      rw [hkept, collect, collect, hafter, hafter, hf.other fs (some image) htext hes.1, hcollect]
      refine ⟨rfl, fs', ?_, ?_⟩
      · rw [afterAll, List.foldl_cons, hafter]
        exact hoff
      · rw [afterAll, List.foldl_cons, hafter, List.flatMap_cons, halt, List.nil_append]
        exact hon

theorem collect_start_image (hf : WritesImages f) (s : InlineState) (url title : Text)
    (es : List Event) :
    s.collect f (.start (.image url title) :: es) =
      (⟨s.footnotes, some { url, title }⟩ : InlineState).collect f es := by
  rw [collect, hf.start, List.nil_append]
  rfl

theorem collect_stop_image (hf : WritesImages f) (s : InlineState) :
    s.collect f [.stop .image] = s.stopHtml .image := by
  rw [collect, hf.stop, collect, List.append_nil]

theorem stopHtml_image_of_none {s : InlineState} (h : s.image = none) : s.stopHtml .image = [] := by
  obtain ⟨footnotes, image⟩ := s
  obtain rfl : image = none := h
  rfl

theorem image_after_of_none {s : InlineState} (h : s.image = none) {e : Event}
    (he : e.startsImage = false) : (s.after e).image = none := by
  cases e with
  | text _ => exact (congrArg (Option.map _) h).trans rfl
  | start tag =>
    cases tag with
    | image _ _ => cases he
    | _ => exact h
  | stop tag =>
    cases tag with
    | image => rfl
    | _ => exact h
  | _ => exact h

theorem image_afterAll_events {c : Content} {f : Forest} (hfits : f.fits c = true) {s : InlineState}
    (h : (∀ e ∈ f.events, e.startsImage = false) → s.image = none) :
    (s.afterAll f.events).image = none := by
  induction f generalizing c s with
  | nil => exact h fun e he => absurd he List.not_mem_nil
  | leaf e offset rest ih =>
    obtain ⟨hadmits, hrest⟩ := Forest.fits_leaf_iff.1 hfits
    have he := Event.startsImage_of_isImageMark (Markdown.Content.isImageMark_of_admits hadmits)
    exact ih hrest fun hbehind => image_after_of_none (h (List.forall_mem_cons.2 ⟨he, hbehind⟩)) he
  | element tag start stop inner rest ihinner ihrest =>
    obtain ⟨-, hinner, hrest⟩ := Forest.fits_element_iff.1 hfits
    rw [Forest.events_element] at h ⊢
    rw [afterAll, List.foldl_cons, List.foldl_append, List.foldl_cons]
    refine ihrest hrest fun hbehind => ?_
    rcases tag.image_or with ⟨url, title, rfl⟩ | ⟨hstart, hstop⟩
    · rfl
    have hstart := Event.startsImage_of_isImageMark hstart
    have hstop := Event.startsImage_of_isImageMark hstop
    have hinside : ((s.after (.start tag)).afterAll inner.events).image = none := by
      refine ihinner hinner fun hinside => image_after_of_none (h ?_) hstart
      refine List.forall_mem_cons.2 ⟨hstart, List.forall_mem_append.2 ⟨hinside, ?_⟩⟩
      exact List.forall_mem_cons.2 ⟨hstop, hbehind⟩
    exact image_after_of_none hinside hstop

/-- What the end of an image writes: the image with the texts inside it, unless a further image
inside has taken its place. -/
def imageHtml (url title : Text) (es : List Event) : Text :=
  if es.any Event.startsImage then [] else Html.image url (es.flatMap Event.altText) title

theorem imageHtml_of_forall {url title : Text} {es : List Event}
    (hes : ∀ e ∈ es, e.startsImage = false) :
    imageHtml url title es = Html.image url (es.flatMap Event.altText) title := by
  rw [imageHtml, if_neg]
  simpa using hes

theorem collect_image_of_forall (hf : WritesImages f) (fs : Footnotes) (url title : Text)
    {es : List Event} (hes : ∀ e ∈ es, e.isImageMark = false) :
    (⟨fs, none⟩ : InlineState).collect f (.start (.image url title) :: (es ++ [.stop .image])) =
      (⟨fs, none⟩ : InlineState).collect f (uncaptured es) ++ imageHtml url title es := by
  have hstarts : ∀ e ∈ es, e.startsImage = false :=
    fun e he => Event.startsImage_of_isImageMark (hes e he)
  obtain ⟨hcollect, fs', -, hon⟩ := collect_captured hf hes fs { url, title }
  have hend : (⟨fs', some ⟨url, title, [] ++ es.flatMap Event.altText⟩⟩ : InlineState).collect f
      [.stop .image] = Html.image url (es.flatMap Event.altText) title := by
    rw [collect_stop_image hf]
    rfl
  rw [collect_start_image hf, collect_append, hcollect, hon, hend,
    imageHtml_of_forall hstarts, Markdown.uncaptured_of_forall hstarts]

theorem collect_image_of_nested (hf : WritesImages f) (fs : Footnotes)
    (url title url' title' : Text) {before behind : List Event}
    (hbefore : ∀ e ∈ before, e.isImageMark = false) (hclosed : ∀ s : InlineState,
      (s.afterAll (before ++ .start (.image url' title') :: behind)).image = none) :
    let es := before ++ .start (.image url' title') :: behind
    (⟨fs, none⟩ : InlineState).collect f (.start (.image url title) :: (es ++ [.stop .image])) =
      (⟨fs, none⟩ : InlineState).collect f (uncaptured es) ++ imageHtml url title es := by
  intro es
  have hstarts : ∀ e ∈ before, e.startsImage = false :=
    fun e he => Event.startsImage_of_isImageMark (hbefore e he)
  obtain ⟨hcollect, fs', hoff, hon⟩ := collect_captured hf hbefore fs { url, title }
  have himage : imageHtml url title es = [] := if_pos (by simp [es, Event.startsImage])
  have hend : ((⟨fs, some { url, title }⟩ : InlineState).afterAll es).collect f [.stop .image] =
      [] := by
    rw [collect_stop_image hf, stopHtml_image_of_none (hclosed _)]
  rw [collect_start_image hf, collect_append, hend, himage, List.append_nil, List.append_nil,
    Markdown.uncaptured_append hstarts, collect_append, collect_append, hcollect, hoff, hon,
    collect_start_image hf, collect_start_image hf]

theorem collect_image (hf : WritesImages f) (fs : Footnotes) (url title : Text) {c : Content}
    {inner : Forest} (hfits : inner.fits c = true) :
    (⟨fs, none⟩ : InlineState).collect f
        (.start (.image url title) :: (inner.events ++ [.stop .image])) =
      (⟨fs, none⟩ : InlineState).collect f (uncaptured inner.events) ++
        imageHtml url title inner.events := by
  rcases Forest.image_cases hfits with hnone | ⟨before, url', title', behind, hsplit, hbefore⟩
  · exact collect_image_of_forall hf fs url title hnone
  · have hmem : Event.start (.image url' title') ∈ inner.events :=
      hsplit ▸ List.mem_append_cons_self
    have hclosed (s : InlineState) : (s.afterAll inner.events).image = none :=
      image_afterAll_events hfits fun hnone => nomatch hnone _ hmem
    rw [hsplit] at hclosed ⊢
    exact collect_image_of_nested hf fs url title url' title' hbefore hclosed

end image

end InlineState

namespace Renderer

/-! ## What inline content writes -/

section content

variable {r r₁ r₂ : Renderer} {s : InlineState} {e : Event}

/-- Inline content is being read, and what came before it left `s`. -/
structure Follows (r : Renderer) (s : InlineState) : Prop where
  code : r.code = none
  metadata : r.inMetadata = false
  footnotes : r.footnotes = s.footnotes
  image : r.image = s.image

theorem Follows.writeInline (h : r.Follows s) (html : Text) : (r.writeInline html).Follows s := by
  unfold Renderer.writeInline
  split <;> exact ⟨h.code, h.metadata, h.footnotes, h.image⟩

theorem Follows.noteInline (h : r.Follows s) (text html : Text) :
    ((r.noteText text).writeInline html).Follows s :=
  have hnoted : (r.noteText text).Follows s := ⟨h.code, h.metadata, h.footnotes, h.image⟩
  hnoted.writeInline html

theorem Follows.text (h : r.Follows s) (text : Text) :
    (r.text text).Follows (s.after (.text text)) := by
  obtain ⟨footnotes, image⟩ := s
  cases image with
  | none =>
    rw [Quiet.text_eq ⟨h.code, h.image, h.metadata⟩]
    exact h.noteInline text _
  | some image =>
    unfold Renderer.text
    rw [h.metadata, h.code, h.image]
    exact ⟨rfl, rfl, h.footnotes, rfl⟩

theorem Follows.endImage (h : r.Follows s) : r.endImage.Follows (s.after (.stop .image)) := by
  cases himage : r.image with
  | none =>
    rw [endImage_of_none himage]
    exact ⟨h.code, h.metadata, h.footnotes, himage⟩
  | some image =>
    rw [endImage_of_some himage]
    have hwritten := h.writeInline (Html.image image.url image.alt image.title)
    exact ⟨hwritten.code, hwritten.metadata, hwritten.footnotes, rfl⟩

theorem Follows.step (h : r.Follows s) (he : e.isPhrase = true) (line : Option Nat) :
    (r.step e line).Follows (s.after e) := by
  cases e with
  | text text => exact h.text text
  | start tag =>
    cases tag with
    | image url title => exact ⟨h.code, h.metadata, h.footnotes, rfl⟩
    | emphasis | strong | strikethrough | superscript | subscript | link _ _ =>
      exact h.writeInline _
    | _ => cases he
  | stop tag =>
    cases tag with
    | image => exact h.endImage
    | emphasis | strong | strikethrough | superscript | subscript | link => exact h.writeInline _
    | _ => cases he
  | code _ | inlineMath _ | displayMath _ | softBreak => exact h.noteInline _ _
  | footnoteReference label =>
    have hreferred : ({ r with footnotes := r.footnotes.refer label } : Renderer).Follows
        (s.after (.footnoteReference label)) :=
      ⟨h.code, h.metadata, congrArg (Footnotes.refer · label) h.footnotes, h.image⟩
    exact hreferred.writeInline _
  | hardBreak | taskMarker _ => exact ⟨h.code, h.metadata, h.footnotes, h.image⟩
  | html _ | inlineHtml _ | rule => cases he

/-- What an event of inline content writes is told by the state of the content alone. -/
theorem Follows.emitted_eq (h : r.Follows s) (he : e.goesInline = true) (line : Option Nat) :
    r.emitted e line = s.html e := by
  obtain ⟨output, code, table, image, headings, footnotes, saved, quotes, inMetadata, markers⟩ := r
  obtain ⟨footnotes', image'⟩ := s
  obtain rfl : code = none := h.code
  obtain rfl : inMetadata = false := h.metadata
  obtain rfl : footnotes = footnotes' := h.footnotes
  obtain rfl : image = image' := h.image
  cases e with
  | text text => cases image <;> rfl
  | start tag =>
    cases tag with
    | image _ _ | emphasis | strong | strikethrough | superscript | subscript | link _ _ => rfl
    | _ => cases he
  | stop tag =>
    cases tag with
    | image => cases image <;> rfl
    | emphasis | strong | strikethrough | superscript | subscript | link => rfl
    | _ => cases he
  | code _ | inlineMath _ | displayMath _ | softBreak | footnoteReference _ => rfl
  | html _ | inlineHtml _ | hardBreak | rule | taskMarker _ => cases he

/-- Between the two states inline content was written: `html` to the open heading and `aside` in
front of it, or `page` to the page if no heading is open. -/
structure AddsContent (r r' : Renderer) (aside html page : Text) : Prop where
  heading : r.headings.isOpen = true → Adds r r' aside html
  page : r.headings.isOpen = false → Adds r r' page []

theorem Adds.trans {out head out' head' : Text} (h : Adds r r₁ out head)
    (h' : Adds r₁ r₂ out' head') : Adds r r₂ (out ++ out') (head ++ head') where
  output := by rw [h'.output, h.output, List.append_assoc]
  heading := by simp [h'.heading, h.heading, Function.comp_def]

theorem AddsContent.trans {aside html page aside' html' page' : Text}
    (h : AddsContent r r₁ aside html page) (h' : AddsContent r₁ r₂ aside' html' page') :
    AddsContent r r₂ (aside ++ aside') (html ++ html') (page ++ page') where
  heading hopen :=
    have hadds := h.heading hopen
    hadds.trans (h'.heading (hadds.isOpen.trans hopen))
  page hopen :=
    have hadds := h.page hopen
    hadds.trans (h'.page (hadds.isOpen.trans hopen))

theorem addsContent_step (h : r.Follows s) (he : e.isPhrase = true) (line : Option Nat) :
    AddsContent r (r.step e line) e.aside (s.html e) (s.onPage e) := by
  rcases Event.aside_cases he with ⟨hinline, haside⟩ | ⟨hinline, -⟩
  · have hadds := addsInline_step r hinline line
    rw [h.emitted_eq hinline] at hadds
    rw [InlineState.onPage, haside, List.append_nil]
    exact ⟨hadds.heading, hadds.page⟩
  · cases e with
    | hardBreak | taskMarker _ => exact ⟨fun _ => .of_output rfl rfl, fun _ => .of_output rfl rfl⟩
    | _ => exact absurd (hinline.symm.trans he) Bool.false_ne_true

theorem addsContent_steps (h : r.Follows s) {es : List (Event × Option Nat)}
    (hes : ∀ e ∈ es.map (·.1), e.isPhrase = true) :
    AddsContent r (r.steps es) ((es.map (·.1)).flatMap Event.aside)
      (s.collect InlineState.html (es.map (·.1)))
      (s.collect InlineState.onPage (es.map (·.1))) := by
  induction es generalizing r s with
  | nil =>
    have hnothing : Adds r r [] [] := .of_output (List.append_nil _).symm rfl
    exact ⟨fun _ => hnothing, fun _ => hnothing⟩
  | cons e es ih =>
    rw [List.map_cons, List.forall_mem_cons] at hes
    exact (addsContent_step h hes.1 e.2).trans (ih (h.step hes.1 e.2) hes.2)

end content

/-! ## Images -/

section image

variable {r r' : Renderer} {s : InlineState}

theorem onPage_ne_nil {e : Event} (he : e.isPhrase = true) (htext : e.isText = false)
    (hmark : e.isImageMark = false) : s.onPage e ≠ [] := by
  cases e with
  | text _ => cases htext
  | start tag =>
    cases tag with
    | image _ _ => cases hmark
    | emphasis | strong | strikethrough | superscript | subscript | link _ _ =>
      exact fun h => by cases h
    | _ => cases he
  | stop tag =>
    cases tag with
    | image => cases hmark
    | emphasis | strong | strikethrough | superscript | subscript | link =>
      exact fun h => by cases h
    | _ => cases he
  | html _ | inlineHtml _ | rule => cases he
  | taskMarker checked => cases checked <;> exact fun h => by cases h
  | _ => exact fun h => by cases h

theorem Adds.unique {out head out' head' : Text} (h : Adds r r' out head)
    (h' : Adds r r' out' head') : out = out' ∧ (r.headings.isOpen = true → head = head') := by
  refine ⟨List.append_cancel_left (h.output.symm.trans h'.output), fun hopen => ?_⟩
  have hheading := h.heading.symm.trans h'.heading
  rw [Headings.isOpen_eq] at hopen
  obtain ⟨opened, hopened⟩ := Option.isSome_iff_exists.1 hopen
  rw [hopened] at hheading
  exact List.append_cancel_left (Prod.mk.inj (Option.some.inj hheading)).2

theorem AddsContent.addsInline_iff {aside html page behind : Text}
    (h : AddsContent r r' aside (html ++ behind) (page ++ behind)) :
    AddsInline r r' behind ↔
      (r.headings.isOpen = true → aside = [] ∧ html = []) ∧
        (r.headings.isOpen = false → page = []) := by
  refine ⟨fun hinline => ⟨fun hopen => ?_, fun hopen => ?_⟩, fun ⟨hheading, hpage⟩ => ⟨?_, ?_⟩⟩
  · obtain ⟨haside, hhtml⟩ := (h.heading hopen).unique (hinline.heading hopen)
    exact ⟨haside, List.append_left_eq_self.1 (hhtml hopen)⟩
  · exact List.append_left_eq_self.1 ((h.page hopen).unique (hinline.page hopen)).1
  · intro hopen
    obtain ⟨rfl, rfl⟩ := hheading hopen
    exact h.heading hopen
  · intro hopen
    obtain rfl := hpage hopen
    exact h.page hopen

/-- What an image and its content write: at first what is not taken out, and then the image, unless
a further one inside took its place. -/
theorem addsContent_image (hquiet : r.Quiet) (url title : Text) {inner : Forest}
    (hfits : inner.fits .inlines = true) (hphrase : ∀ e ∈ inner.events, e.isPhrase = true)
    {es : List (Event × Option Nat)} (hes : es.map (·.1) = inner.events) (line line' : Option Nat) :
    let content : InlineState := { footnotes := r.footnotes }
    let image := InlineState.imageHtml url title inner.events
    AddsContent r
      (r.steps ((.start (.image url title), line) :: (es ++ [(.stop .image, line')])))
      (inner.events.flatMap Event.aside)
      (content.collect InlineState.html (uncaptured inner.events) ++ image)
      (content.collect InlineState.onPage (uncaptured inner.events) ++ image) := by
  intro content image
  have hfollows : r.Follows content := ⟨hquiet.code, hquiet.metadata, rfl, hquiet.image⟩
  let events := (Event.start (.image url title), line) :: (es ++ [(.stop .image, line')])
  have hevents : events.map (·.1) =
      .start (.image url title) :: (inner.events ++ [.stop .image]) := by
    rw [← hes, List.map_cons, List.map_append]
    rfl
  have hall : ∀ e ∈ events.map (·.1), e.isPhrase = true := by
    rw [hevents, List.forall_mem_cons, List.forall_mem_append, List.forall_mem_singleton]
    exact ⟨rfl, hphrase, rfl⟩
  have hadds := addsContent_steps hfollows hall
  have haside : (events.map (·.1)).flatMap Event.aside = inner.events.flatMap Event.aside := by
    rw [hevents, List.flatMap_cons, List.flatMap_append]
    exact List.append_nil _
  rw [haside, hevents, InlineState.collect_image .html r.footnotes url title hfits,
    InlineState.collect_image .onPage r.footnotes url title hfits] at hadds
  exact hadds

theorem uncaptured_silent_iff {es : List Event} (hphrase : ∀ e ∈ es, e.isPhrase = true)
    (hmarks : ∀ e ∈ es, e.isImageMark = false) :
    (s.collect InlineState.onPage (uncaptured es) = [] ↔ ∀ e ∈ es, e.isText = true) ∧
      (es.flatMap Event.aside = [] ∧ s.collect InlineState.html (uncaptured es) = [] ↔
        ∀ e ∈ es, e.isText = true) := by
  have huncaptured : uncaptured es = es.filter (!·.isText) :=
    Markdown.uncaptured_of_forall fun e he => Event.startsImage_of_isImageMark (hmarks e he)
  have htexts : uncaptured es = [] ↔ ∀ e ∈ es, e.isText = true := by
    rw [huncaptured, List.filter_eq_nil_iff]
    simp
  have hwritten : ∀ e ∈ uncaptured es, ∀ s : InlineState, s.onPage e ≠ [] := by
    intro e he s
    rw [huncaptured, List.mem_filter] at he
    exact onPage_ne_nil (hphrase e he.1) (by simpa using he.2) (hmarks e he.1)
  rw [← htexts]
  refine ⟨⟨InlineState.eq_nil_of_collect_eq_nil hwritten, fun h => by rw [h]; rfl⟩,
    fun ⟨haside, hhtml⟩ => ?_, fun h => ⟨?_, ?_⟩⟩
  · refine InlineState.eq_nil_of_collect_eq_nil hwritten (s := s) ?_
    -- nothing stands aside, so the page would get what the heading gets
    rw [← hhtml]
    refine InlineState.collect_congr fun e he s => ?_
    rw [huncaptured] at he
    have hnone := List.flatMap_eq_nil_iff.1 haside e (List.mem_filter.1 he).1
    rw [InlineState.onPage, hnone, List.append_nil]
  · rw [List.flatMap_eq_nil_iff]
    intro e he
    have htext := htexts.1 h e he
    cases e with
    | text _ => rfl
    | _ => cases htext
  · rw [h]
    rfl

/-- An image takes only the texts out of its content. Everything else is written in front of it, in
the order of the events. So without a further image inside, one `img` is all that is written exactly
if the image holds nothing but texts. If there is a further image inside, it is written and the
outer one is not, and the content behind it is written as if it stood in no image. -/
theorem adds_image (hquiet : r.Quiet) (url title : Text) {inner : Forest}
    (hfits : inner.fits .inlines = true) (hphrase : ∀ e ∈ inner.events, e.isPhrase = true)
    {es : List (Event × Option Nat)} (hes : es.map (·.1) = inner.events) (line line' : Option Nat) :
    let content : InlineState := { footnotes := r.footnotes }
    let image := InlineState.imageHtml url title inner.events
    let r' := r.steps ((.start (.image url title), line) :: (es ++ [(.stop .image, line')]))
    AddsContent r r' (inner.events.flatMap Event.aside)
        (content.collect InlineState.html (uncaptured inner.events) ++ image)
        (content.collect InlineState.onPage (uncaptured inner.events) ++ image) ∧
      ((∀ e ∈ inner.events, e.startsImage = false) →
        (AddsInline r r' (Html.image url (inner.events.flatMap Event.altText) title) ↔
          ∀ e ∈ inner.events, e.isText = true)) := by
  intro content image r'
  have hadds := addsContent_image hquiet url title hfits hphrase hes line line'
  refine ⟨hadds, fun hstarts => ?_⟩
  have hmarks : ∀ e ∈ inner.events, e.isImageMark = false := by
    rcases Forest.image_cases hfits with hnone | ⟨before, url', title', behind, hsplit, -⟩
    · exact hnone
    · have hmem : Event.start (.image url' title') ∈ inner.events :=
        hsplit ▸ List.mem_append_cons_self
      exact nomatch hstarts _ hmem
  rw [InlineState.imageHtml_of_forall hstarts] at hadds
  obtain ⟨hpage, hheading⟩ := uncaptured_silent_iff (s := content) hphrase hmarks
  rw [hadds.addsInline_iff, hpage, hheading]
  cases r.headings.isOpen <;> simp

end image

/-- Content of an image: a text, code in strong emphasis, a line break and a text. -/
def sampleAlt : Forest :=
  .leaf (.text "a") 0 (.element .strong 0 0 (.leaf (.code "x") 0 .nil)
    (.leaf .hardBreak 0 (.leaf (.text "b") 0 .nil)))

theorem adds_image_sampleAlt :
    Quiet {} ∧ sampleAlt.fits .inlines = true ∧ (∀ e ∈ sampleAlt.events, e.isPhrase = true) ∧
      (sampleAlt.events.map fun e => (e, (none : Option Nat))).map (·.1) = sampleAlt.events ∧
      let r' := steps {} ((.start (.image "u" "t"), none) ::
        (sampleAlt.events.map (fun e => (e, none)) ++ [(.stop .image, none)]))
      r'.output = "<strong><code>x</code></strong><br />\n" ++ Html.image "u" "ab" "t" ∧
        ¬ AddsInline {} r' (Html.image "u" "ab" "t") := by
  have hquiet : Quiet {} := ⟨rfl, rfl, rfl⟩
  have hfits : sampleAlt.fits .inlines = true := by decide
  have hphrase : ∀ e ∈ sampleAlt.events, e.isPhrase = true := by decide
  have hevents : (sampleAlt.events.map fun e => (e, (none : Option Nat))).map (·.1) =
      sampleAlt.events := by decide
  obtain ⟨hadds, honly⟩ := adds_image hquiet "u" "t" hfits hphrase hevents none none
  refine ⟨hquiet, hfits, hphrase, hevents, (hadds.page rfl).output.trans rfl, fun hinline => ?_⟩
  exact absurd ((honly (by decide)).1 hinline) (by decide)

/-- An emphasis stands empty in front of the image that contains it, and an image inside another one
is written instead of it. -/
theorem output_markedImages :
    (steps {} [(.start (.image "u" ""), none), (.start .emphasis, none), (.text "a", none),
        (.stop .emphasis, none), (.stop .image, none)]).output =
      "<em></em><img src=\"u\" alt=\"a\" />" ∧
    "<em></em><img src=\"u\" alt=\"a\" />" ≠ Html.image "u" "a" "" ∧
    (steps {} [(.start (.image "u" ""), none), (.text "a", none), (.start (.image "v" ""), none),
        (.text "b", none), (.stop .image, none), (.text "c", none), (.stop .image, none)]).output =
      "<img src=\"v\" alt=\"b\" />c" ∧
    "<img src=\"v\" alt=\"b\" />c" ≠ Html.image "u" "abc" "" := by
  decide

end Renderer

end Galley.Render
