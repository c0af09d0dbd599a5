import Galley.Proofs.Render.Collected
import Galley.Proofs.Render.HeadingLink
import Galley.Proofs.Render.ShownText

/-!
# Placeholders

A marker leaves the placeholder of its number, and all that a run collects has no other comments,
whatever the events are (`holdsPlaceholders_step`). Replacing the placeholders one after the other
is therefore replacing each by the table of contents of its own marker, and none is left. Where no
text is dropped, the placeholder of every marker stands on the unfinished page
(`placeholder_infix_unfinished`), so every marker shows its table of contents.
-/

namespace Galley.Render

open Html (Commented OnlyTags commentSource)
open Markdown (Event Located Tag TagEnd)

namespace Renderer

variable {r : Renderer} {e : Event}

/-! ## Markers -/

theorem markers_writeInline (r : Renderer) (html : Text) :
    (r.writeInline html).markers = r.markers := by
  unfold writeInline
  split <;> rfl

theorem markers_startTag (r : Renderer) (tag : Tag) (line : Option Nat) :
    (r.startTag tag line).markers = r.markers := by
  cases tag with
  | blockQuote kind => cases kind <;> rfl
  | emphasis | strong | strikethrough | superscript | subscript | link _ _ =>
    exact markers_writeInline r _
  | _ => rfl

theorem markers_endTag (r : Renderer) (tag : TagEnd) : (r.endTag tag).markers = r.markers := by
  cases tag with
  | heading _ =>
    show r.endHeading.markers = _
    unfold endHeading
    split <;> rfl
  | blockQuote _ =>
    show r.endQuote.markers = _
    unfold endQuote
    split <;> rfl
  | footnoteDefinition =>
    show r.endFootnote.markers = _
    unfold endFootnote
    split
    · split <;> rfl
    · rfl
  | image =>
    show r.endImage.markers = _
    unfold endImage
    split
    · rfl
    · exact markers_writeInline r _
  | emphasis | strong | strikethrough | superscript | subscript | link =>
    exact markers_writeInline r _
  | _ => rfl

theorem rawHtml_of_marker {html : Text} {marker : Toc.Marker}
    (h : Toc.Marker.ofComment? html = some marker) : r.rawHtml html =
      { r.write (placeholder r.markers.length) with markers := r.markers ++ [marker] } := by
  rw [rawHtml, h]

theorem written_of_marker {marker : Toc.Marker} (h : e.marker? = some marker) (r : Renderer)
    (line : Option Nat) : r.written e line = placeholder r.markers.length := by
  cases e with
  | html html | inlineHtml html =>
    show (r.emptied.rawHtml html).output = _
    rw [rawHtml_of_marker h]
    rfl
  | _ => cases h

theorem markers_rawHtml (r : Renderer) (html : Text) :
    (r.rawHtml html).markers = r.markers ++ (Toc.Marker.ofComment? html).toList := by
  cases hmarker : Toc.Marker.ofComment? html with
  | none =>
    rw [rawHtml, hmarker, Option.toList_none, List.append_nil]
    exact markers_writeInline r html
  | some marker => rw [rawHtml_of_marker hmarker, Option.toList_some]

theorem markers_step (r : Renderer) (e : Event) (line : Option Nat) :
    (r.step e line).markers = r.markers ++ e.marker?.toList := by
  have hsilent : e.marker? = none → (r.step e line).markers = r.markers →
      (r.step e line).markers = r.markers ++ e.marker?.toList := by
    intro hnone hmarkers
    rw [hnone, hmarkers, Option.toList_none, List.append_nil]
  cases e with
  | html html | inlineHtml html => exact markers_rawHtml r html
  | start tag => exact hsilent rfl (markers_startTag r tag line)
  | stop tag => exact hsilent rfl (markers_endTag r tag)
  | text text =>
    refine hsilent rfl ?_
    show (r.text text).markers = _
    unfold Renderer.text
    split
    · rfl
    · split
      · rfl
      · rfl
      · exact markers_writeInline _ _
  | code _ | inlineMath _ | displayMath _ | softBreak | footnoteReference _ =>
    exact hsilent rfl (markers_writeInline _ _)
  | hardBreak | rule | taskMarker _ => exact hsilent rfl rfl

theorem markers_steps (r : Renderer) (es : List (Event × Option Nat)) :
    (r.steps es).markers = r.markers ++ es.filterMap (·.1.marker?) := by
  induction es generalizing r with
  | nil => exact (List.append_nil _).symm
  | cons e es ih =>
    refine (ih (r.step e.1 e.2)).trans ?_
    rw [markers_step, List.append_assoc, List.filterMap_cons]
    cases e.1.marker? <;> rfl

theorem exists_piece_of_marker (r : Renderer) (opened : List Text) {es : List (Event × Option Nat)}
    {index : Nat} (hfrom : r.markers.length ≤ index)
    (hto : index < r.markers.length + (es.filterMap (·.1.marker?)).length) :
    ∃ p ∈ r.pieces opened es, p.html = placeholder index := by
  induction es generalizing r opened with
  | nil => exact absurd hto (Nat.not_lt.2 hfrom)
  | cons first es ih =>
    obtain ⟨e, line⟩ := first
    have hlength : (r.step e line).markers.length = r.markers.length + e.marker?.toList.length := by
      rw [markers_step, List.length_append]
    have hlater : (r.step e line).markers.length ≤ index →
        ∃ p ∈ r.pieces opened ((e, line) :: es), p.html = placeholder index := by
      intro hbehind
      have hbefore : index < (r.step e line).markers.length +
          (es.filterMap (·.1.marker?)).length := by
        rw [List.filterMap_cons] at hto
        cases hmarker : e.marker? with
        | none => simpa [hlength, hmarker] using hto
        | some marker =>
          simp only [hlength, hmarker, List.length_cons, Option.toList_some, List.length_nil] at hto ⊢
          omega
      obtain ⟨p, hp, hhtml⟩ :=
        ih (r.step e line) (Markdown.openNotes opened e) hbehind hbefore
      exact ⟨p, List.mem_cons_of_mem _ hp, hhtml⟩
    cases hmarker : e.marker? with
    | none => exact hlater (by rwa [hlength, hmarker])
    | some marker =>
      by_cases hself : index = r.markers.length
      · subst hself
        exact ⟨_, List.mem_cons_self, written_of_marker hmarker r line⟩
      · refine hlater ?_
        rw [hlength, hmarker, Option.toList_some, List.length_singleton]
        omega

/-- If no definition starts inside another one and no label is defined twice, the placeholder of
every marker stands on the unfinished page. -/
theorem placeholder_infix_unfinished {strict : List Text} {es : List (Event × Option Nat)}
    (h : InTurn strict es none) (hdistinct : ((es.map (·.1)).filterMap (·.definedLabel?)).Nodup)
    {index : Nat} (hindex : index < (es.filterMap (·.1.marker?)).length) :
    placeholder index <:+: (({} : Renderer).steps es).unfinished := by
  have hto : index < ({} : Renderer).markers.length + (es.filterMap (·.1.marker?)).length := by
    rwa [show ({} : Renderer).markers = [] from rfl, List.length_nil, Nat.zero_add]
  obtain ⟨p, hp, hhtml⟩ := exists_piece_of_marker {} [] (Nat.zero_le index) hto
  rw [unfinished, h.output_append_sectionHtml hdistinct]
  exact infix_assembledPage h ⟨p, hp, hhtml ▸ List.infix_rfl⟩

/-! ## The comments of what is collected -/

/-- What the comment of a placeholder says. -/
abbrev placeholderName (index : Nat) : Text := "mdv-toc-placeholder-" ++ Text.ofNat index

def IsPlaceholder (n : Nat) (c : Text) : Prop := ∃ index < n, c = placeholderName index

/-- The comments of all that was collected are placeholders of the markers so far. -/
def HoldsPlaceholders (r : Renderer) : Prop :=
  Holds (Commented (IsPlaceholder r.markers.length)) r

theorem lasts_commented (Q : Text → Prop) : Lasts (Commented Q) where
  nil := .nil
  append := .append
  heading := fun {heading} h => by
    have hstart : OnlyTags (Html.openTag (headingName heading.level) (headingAttributes heading)) :=
      .singleton (tags?_headingStart heading) trivial
    have hstop : OnlyTags (headingEnd heading.level) :=
      .singleton (tags?_headingEnd heading.level) trivial
    rw [headingHtml_eq]
    exact ((Commented.of_onlyTags hstart).append h.trim).append (.of_onlyTags hstop)

theorem commented_placeholder (index : Nat) :
    Commented (IsPlaceholder (index + 1)) (placeholder index) := by
  rw [placeholder_eq]
  exact .comment (isPlain_placeholder index) ⟨index, Nat.lt_succ_self index, rfl⟩

/-- A marker adds its own placeholder, and no other event adds a comment. -/
theorem holdsPlaceholders_step (h : r.HoldsPlaceholders) (he : e.OnlyMarkers) (line : Option Nat) :
    (r.step e line).HoldsPlaceholders := by
  have hmarker : ∀ html, Toc.Marker.IsComment html → (r.rawHtml html).HoldsPlaceholders := by
    intro html hcomment
    obtain ⟨marker, hread, -⟩ := Toc.Marker.exists_ofComment?_of_isComment hcomment
    rw [rawHtml_of_marker hread]
    have hmore : Holds (Commented (IsPlaceholder (r.markers.length + 1))) r :=
      h.mono fun _ hu => hu.mono fun c ⟨index, hindex, hc⟩ => ⟨index, Nat.lt_succ_of_lt hindex, hc⟩
    have hwritten := hmore.write (lasts_commented _) (commented_placeholder r.markers.length)
    rw [HoldsPlaceholders, List.length_append]
    exact ⟨hwritten.output, hwritten.heading, hwritten.saved, hwritten.notes⟩
  cases hraw : e.isRaw with
  | true =>
    cases e with
    | html html | inlineHtml html => exact hmarker html he
    | _ => cases hraw
  | false =>
    have hnone : e.marker? = none := by
      cases e with
      | html _ | inlineHtml _ => cases hraw
      | _ => rfl
    rw [HoldsPlaceholders, markers_step, hnone, Option.toList_none, List.append_nil]
    exact Holds.step (lasts_commented _) h hraw line fun hheading _ =>
      .of_onlyTags ⟨_, tags?_emitted r hraw hheading line, fun _ _ => trivial⟩

theorem holdsPlaceholders_steps {es : List (Event × Option Nat)} (h : r.HoldsPlaceholders)
    (hes : ∀ e ∈ es, e.1.OnlyMarkers) : (r.steps es).HoldsPlaceholders := by
  induction es generalizing r with
  | nil => exact h
  | cons e es ih =>
    rw [List.forall_mem_cons] at hes
    exact ih (holdsPlaceholders_step h hes.1 e.2) hes.2

/-! ## Filling in -/

/-- What stands for each placeholder, the first of which has the number `index`. -/
def fillTable (toc : List Toc.Entry) (options : Toc.Options) (index : Nat)
    (markers : List Toc.Marker) : List (Text × Text) :=
  (markers.zipIdx index).map fun m => (placeholderName m.2, Toc.render toc options m.1.title)

theorem fillMarkers_eq (toc : List Toc.Entry) (options : Toc.Options) (index : Nat)
    (markers : List Toc.Marker) (html : Text) : fillMarkers toc options index markers html =
      Html.replaceComments (fillTable toc options index markers) html := by
  induction markers generalizing index html with
  | nil => rfl
  | cons marker markers ih =>
    rw [fillMarkers, ih, placeholder_eq]
    rfl

theorem commentSources_fillTable (toc : List Toc.Entry) (options : Toc.Options) (index : Nat)
    (markers : List Toc.Marker) : Html.commentSources (fillTable toc options index markers) =
      (markers.zipIdx index).map fun m => (placeholder m.2, Toc.render toc options m.1.title) := by
  rw [Html.commentSources, fillTable, List.map_map]
  exact List.map_congr_left fun m _ => by rw [placeholder_eq]; rfl

theorem fillTable_sound (toc : List Toc.Entry) (options : Toc.Options) (index : Nat)
    {markers : List Toc.Marker} (h : ∀ marker ∈ markers, marker.title.all Html.isPlain = true) :
    ∀ entry ∈ fillTable toc options index markers,
      Html.isPlain entry.1 = true ∧ OnlyTags entry.2 := by
  intro entry hentry
  obtain ⟨m, hm, rfl⟩ := List.mem_map.1 hentry
  obtain ⟨ts, hts, -⟩ := Toc.tagged_render toc options (h m.1 (List.fst_mem_of_mem_zipIdx hm))
  exact ⟨isPlain_placeholder m.2, ts, hts, fun _ _ => trivial⟩

theorem mem_fillTable_of_isPlaceholder (toc : List Toc.Entry) (options : Toc.Options)
    {markers : List Toc.Marker} {c : Text} (h : IsPlaceholder markers.length c) :
    c ∈ (fillTable toc options 0 markers).map (·.1) := by
  obtain ⟨index, hindex, rfl⟩ := h
  have hmem : (markers[index], index) ∈ markers.zipIdx 0 :=
    List.mk_mem_zipIdx_iff_getElem?.2 (List.getElem?_eq_getElem hindex)
  exact List.mem_map_of_mem (List.mem_map_of_mem hmem)

theorem nodup_fillTable (toc : List Toc.Entry) (options : Toc.Options) (index : Nat)
    (markers : List Toc.Marker) : ((fillTable toc options index markers).map (·.1)).Nodup := by
  have hnames : (fillTable toc options index markers).map (·.1) =
      ((markers.zipIdx index).map (·.2)).map placeholderName := by
    rw [fillTable, List.map_map, List.map_map]
    rfl
  have hinjective : Function.Injective placeholderName :=
    fun _ _ h => Text.ofNat_inj (List.append_cancel_left h)
  rw [hnames, List.zipIdx_map_snd]
  exact (List.nodup_range' _).map hinjective

/-- The page is the unfinished one with all placeholders filled in: each with the table of contents
of the whole page, under the title of the marker of its number. -/
structure Filled (options : Toc.Options) (run : Renderer) (events : List Event) (page : Page) :
    Prop where
  html : page.html = Text.replaceAll
    ((events.filterMap Event.marker?).zipIdx.map fun m =>
      (placeholder m.2, Toc.render page.toc options m.1.title)) run.unfinished
  clean : Text.hasInfix "<!--mdv-toc-placeholder-" page.html = false

theorem html_finish (r : Renderer) (options : Toc.Options) : (r.finish options).1.html =
    Html.replaceComments (fillTable r.headings.toc options 0 r.markers) r.unfinished :=
  fillMarkers_eq _ _ _ _ _

section finish

variable {run : Renderer} {events : List Event} (options : Toc.Options)
  (hmarkers : run.markers = events.filterMap Event.marker?)
  (hevents : ∀ e ∈ events, e.OnlyMarkers) (hholds : run.HoldsPlaceholders)

include hmarkers hevents

theorem fillTable_markers_sound : ∀ entry ∈ fillTable run.headings.toc options 0 run.markers,
    Html.isPlain entry.1 = true ∧ OnlyTags entry.2 := by
  refine fillTable_sound run.headings.toc options 0 fun marker hmarker => ?_
  rw [hmarkers] at hmarker
  obtain ⟨e, he, heq⟩ := List.mem_filterMap.1 hmarker
  exact Event.isPlain_title_of_marker? (hevents e he) heq

include hholds

theorem filled_finish : Filled options run events (run.finish options).1 := by
  have hsound := fillTable_markers_sound options hmarkers hevents
  have hcommented := Holds.unfinished (lasts_commented _) (fun _ => Commented.of_onlyTags) hholds
  constructor
  · obtain ⟨ps, hps, -⟩ := hcommented
    rw [html_finish, Html.replaceComments_eq_replaceAll hsound hps, commentSources_fillTable,
      hmarkers]
    rfl
  · have htagged := Html.tagged_replaceComments hsound
      (hcommented.mono fun _ => mem_fillTable_of_isPlaceholder _ options)
    rw [html_finish]
    exact htagged.hasInfix_eq_false "--mdv-toc-placeholder-"

/-- A marker whose placeholder was not dropped shows the table of contents. -/
theorem infix_finish {index : Nat} {marker : Toc.Marker} (hmarker : run.markers[index]? = some marker)
    (hin : placeholder index <:+: run.unfinished) :
    Toc.render run.headings.toc options marker.title <:+: (run.finish options).1.html := by
  have hsound := fillTable_markers_sound options hmarkers hevents
  have hnodup := nodup_fillTable run.headings.toc options 0 run.markers
  obtain ⟨ps, hps, -⟩ :=
    Holds.unfinished (lasts_commented _) (fun _ => Commented.of_onlyTags) hholds
  have hentry : (placeholderName index, Toc.render run.headings.toc options marker.title) ∈
      fillTable run.headings.toc options 0 run.markers :=
    List.mem_map_of_mem (List.mk_mem_zipIdx_iff_getElem?.2 hmarker)
  rw [placeholder_eq] at hin
  rw [html_finish]
  exact Html.infix_replaceComments hsound hnodup hps hentry hin

end finish

/-- No placeholder is left on a page, and each gave way to the table of contents of its own marker,
if raw HTML only stands for markers. The events need not be nested. -/
theorem filled_renderLocated (options : Toc.Options) {events : List Located}
    (h : ∀ e ∈ events, e.event.OnlyMarkers) :
    (∀ lineOf? : Option (Nat → Nat),
      Filled options
        (({} : Renderer).steps (events.map fun e => (e.event, lineOf?.map (· e.offset))))
        (events.map (·.event)) (({} : Renderer).renderLocated options lineOf? events).1) ∧
      Filled options (({} : Renderer).steps ((events.map (·.event)).map (·, none)))
        (events.map (·.event)) (({} : Renderer).render options (events.map (·.event))).1 := by
  have hevents : ∀ e ∈ events.map (·.event), e.OnlyMarkers := List.forall_mem_map.2 h
  have hfilled : ∀ line : Located → Option Nat,
      Filled options (({} : Renderer).steps (events.map fun e => (e.event, line e)))
        (events.map (·.event))
        ((({} : Renderer).steps (events.map fun e => (e.event, line e))).finish options).1 := by
    intro line
    refine filled_finish options ?_ hevents ?_
    · rw [markers_steps, List.filterMap_map, List.filterMap_map]
      rfl
    · exact holdsPlaceholders_steps (Holds.fresh (lasts_commented _)) (List.forall_mem_map.2 h)
  refine ⟨fun lineOf? => hfilled fun e => lineOf?.map (· e.offset), ?_⟩
  have hrender := hfilled fun _ => none
  rw [render, List.map_map]
  exact hrender

/-- Twelve markers, the first inside a heading that spells a placeholder and the second inside a
footnote that is never referenced. -/
def twelveMarkers : List Located :=
  let marker (n : Nat) : Located := ⟨.html (Toc.Marker.comment ⟨some (Text.ofNat n)⟩), n⟩
  [⟨.start (.heading 1 none), 0⟩, ⟨.text "<!--mdv-toc-placeholder-1-->", 1⟩, marker 2,
    ⟨.stop (.heading 1), 3⟩, ⟨.start (.footnoteDefinition "n"), 4⟩, marker 5,
    ⟨.stop .footnoteDefinition, 6⟩] ++ (List.range 10).map fun n => marker (n + 7)

theorem filled_twelveMarkers :
    (∀ e ∈ twelveMarkers, e.event.OnlyMarkers) ∧
      (twelveMarkers.filterMap (·.event.marker?)).length = 12 ∧
      (∀ lineOf? : Option (Nat → Nat),
        Filled {} (({} : Renderer).steps
          (twelveMarkers.map fun e => (e.event, lineOf?.map (· e.offset))))
          (twelveMarkers.map (·.event))
          (({} : Renderer).renderLocated {} lineOf? twelveMarkers).1) ∧
      Filled {} (({} : Renderer).steps ((twelveMarkers.map (·.event)).map (·, none)))
        (twelveMarkers.map (·.event))
        (({} : Renderer).render {} (twelveMarkers.map (·.event))).1 ∧
      (({} : Renderer).steps ((twelveMarkers.map (·.event)).map (·, none))).unfinished =
        placeholder 0 ++ "<h1 id=\"mdv-toc-placeholder-1\">&lt;!--mdv-toc-placeholder-1--&gt;</h1>\n" ++
          (List.range 10).flatMap (fun n => placeholder (n + 2)) ++
          "<div class=\"footnotes\">\n<hr class=\"footnotes-sep\" />\n<ol>\n<li id=\"fn-1\">\n" ++
          placeholder 1 ++ "</li>\n</ol>\n</div>\n" := by
  have hcomment : ∀ marker : Toc.Marker, Toc.Marker.IsComment marker.comment := fun marker =>
    ⟨marker, [], [], rfl, rfl, (List.append_nil _).symm⟩
  have hmarkers : ∀ e ∈ twelveMarkers, e.event.OnlyMarkers := by
    simp [twelveMarkers, Event.OnlyMarkers, hcomment]
  obtain ⟨hlocated, hrender⟩ := filled_renderLocated {} hmarkers
  exact ⟨hmarkers, by decide, hlocated, hrender, by decide +kernel⟩

/-- Every marker of a document shows the table of contents under its own title, if no definition
stands inside another one and no label is defined twice. -/
theorem infix_renderLocated_of_marker (options : Toc.Options) (lineOf? : Option (Nat → Nat))
    {f : Markdown.Forest} (hfits : f.fits .blocks = true) (hnotes : f.notesApart false = true)
    (hevents : ∀ e ∈ f.events, e.OnlyMarkers)
    (hdistinct : (f.events.filterMap (·.definedLabel?)).Nodup) {marker : Toc.Marker}
    (hmarker : marker ∈ f.events.filterMap Event.marker?) :
    let page := (({} : Renderer).renderLocated options lineOf? f.located).1
    Toc.render page.toc options marker.title <:+: page.html := by
  intro page
  have hmap := map_fst_lined lineOf? f
  have hmarkers : (({} : Renderer).steps (lined lineOf? f)).markers =
      f.events.filterMap Event.marker? := by
    rw [markers_steps, ← hmap, List.filterMap_map]
    rfl
  have hholds : (({} : Renderer).steps (lined lineOf? f)).HoldsPlaceholders :=
    holdsPlaceholders_steps (Holds.fresh (lasts_commented _)) fun e he => hevents e.1 (mem_lined he)
  obtain ⟨index, hindex, hget⟩ := List.mem_iff_getElem.1 hmarker
  rw [← hmap] at hdistinct
  have hin : placeholder index <:+: (({} : Renderer).steps (lined lineOf? f)).unfinished := by
    refine placeholder_infix_unfinished (inTurn_document lineOf? hfits hnotes) hdistinct ?_
    rwa [← hmap, List.filterMap_map] at hindex
  refine infix_finish options hmarkers hevents hholds ?_ hin
  rw [hmarkers, List.getElem?_eq_getElem hindex, hget]

end Renderer

end Galley.Render
