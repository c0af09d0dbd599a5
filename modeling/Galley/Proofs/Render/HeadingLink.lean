import Galley.Proofs.Html.Bracket
import Galley.Proofs.Render.Emission
import Galley.Proofs.Render.ShownText
import Galley.Proofs.Toc.Link

/-!
# Links to headings

A heading is written at its end, and at the same time recorded for the table of contents. So each
entry has a heading with its id among the pieces that are written, wherever the heading stands; the
pieces all reach the page, and the tables put into the page at its end take nothing away from it.
-/

namespace Galley.Markdown

def Event.headingLevel? : Event → Option Nat
  | .start (.heading level _) => some level
  | _ => none

def Event.marker? : Event → Option Toc.Marker
  | .html source | .inlineHtml source => Toc.Marker.ofComment? source
  | _ => none

theorem Event.isPlain_title_of_marker? {e : Event} {marker : Toc.Marker} (h : e.OnlyMarkers)
    (he : e.marker? = some marker) : marker.title.all Html.isPlain = true := by
  cases e with
  | html source | inlineHtml source =>
    obtain ⟨marker', hread, htitle⟩ := Toc.Marker.exists_ofComment?_of_isComment h
    obtain rfl := Option.some.inj (hread.symm.trans he)
    exact htitle
  | _ => cases he

end Galley.Markdown

namespace Galley.Html

/-! ## Tags of pages in which comments are replaced -/

theorem exists_visibleTags?_replace {html c r : Text} {ts us : List Tag}
    (h : visibleTags? html = some ts) (hc : isPlain c = true) (hr : visibleTags? r = some us) :
    ∃ ts', visibleTags? (Text.replace (commentSource c) r html) = some ts' ∧ ts ⊆ ts' := by
  obtain ⟨ps, rfl, hps, rfl⟩ := visibleTags?_eq_some_iff.1 h
  rw [replace_sources hc r hps]
  clear h
  induction ps with
  | nil => exact ⟨[], rfl, List.Subset.refl _⟩
  | cons p ps ih =>
    obtain ⟨hp, hps⟩ : p.isSound = true ∧ ps.all Part.isSound = true := by simpa using hps
    obtain ⟨ts', hts', hsub⟩ := ih hps
    rw [List.flatMap_cons]
    by_cases hcomment : p = .comment c
    · subst hcomment
      rw [if_pos rfl]
      exact ⟨us ++ ts', visibleTags?_append hr hts',
        List.Subset.trans hsub (List.subset_append_right us ts')⟩
    · have hread : visibleTags? p.source = some p.tag?.toList :=
        visibleTags?_eq_some_iff.2 ⟨[p], by simp, by simpa using hp, by cases p <;> rfl⟩
      rw [if_neg hcomment]
      refine ⟨p.tag?.toList ++ ts', visibleTags?_append hread hts', ?_⟩
      cases p with
      | tag t => exact List.cons_subset_cons t hsub
      | char _ | comment _ => exact hsub

end Galley.Html

namespace Galley.Render

open Markdown (Event Forest Place Tag TagEnd openNotes placeAfter?)

/-- The entries so far, and the level of the open heading. -/
def Headings.frame (hs : Headings) : List Toc.Entry × Option Nat :=
  (hs.toc, hs.opened.map (·.level))

/-- The levels of the entries so far and of the open heading. -/
def Headings.levels (hs : Headings) : List Nat :=
  hs.frame.1.map (·.level) ++ hs.frame.2.toList

namespace Renderer

/-! ## Entries -/

theorem frame_pushText (hs : Headings) (text : Text) : (hs.pushText text).frame = hs.frame := by
  simp [Headings.frame, Headings.pushText, Function.comp_def]

theorem frame_pushHtml (hs : Headings) (html : Text) : (hs.pushHtml html).frame = hs.frame := by
  simp [Headings.frame, Headings.pushHtml, Function.comp_def]

theorem frame_writeInline (r : Renderer) (html : Text) :
    (r.writeInline html).headings.frame = r.headings.frame := by
  unfold writeInline
  split
  · exact frame_pushHtml r.headings html
  · rfl

theorem frame_step (r : Renderer) {e : Event} (he : e.isHeadingMark = false) (line : Option Nat) :
    (r.step e line).headings.frame = r.headings.frame := by
  have hnoted : ∀ text html, ((r.noteText text).writeInline html).headings.frame = r.headings.frame :=
    fun text html => (frame_writeInline _ html).trans (frame_pushText r.headings text)
  cases e with
  | start tag =>
    cases tag with
    | heading _ _ => cases he
    | blockQuote kind => cases kind <;> rfl
    | emphasis | strong | strikethrough | superscript | subscript | link _ _ =>
      exact frame_writeInline r _
    | _ => rfl
  | stop tag =>
    cases tag with
    | heading _ => cases he
    | blockQuote _ =>
      show r.endQuote.headings.frame = _
      unfold endQuote
      split <;> rfl
    | footnoteDefinition => exact congrArg Headings.frame (headings_endFootnote r)
    | image =>
      show r.endImage.headings.frame = _
      cases himage : r.image with
      | none => rw [endImage_of_none himage]
      | some image =>
        rw [endImage_of_some himage]
        exact frame_writeInline r _
    | emphasis | strong | strikethrough | superscript | subscript | link =>
      exact frame_writeInline r _
    | _ => rfl
  | text text =>
    show (r.text text).headings.frame = _
    unfold Renderer.text
    split
    · rfl
    · split
      · rfl
      · rfl
      · exact hnoted text _
  | html html | inlineHtml html =>
    show (r.rawHtml html).headings.frame = _
    unfold rawHtml
    split
    · exact frame_writeInline r html
    · rfl
  | code _ | inlineMath _ | displayMath _ | softBreak => exact hnoted _ _
  | footnoteReference label =>
    exact frame_writeInline { r with footnotes := r.footnotes.refer label } _
  | hardBreak | rule | taskMarker _ => rfl

theorem headingLevel?_of_not_isHeadingMark {e : Event} (he : e.isHeadingMark = false) :
    e.headingLevel? = none := by
  unfold Event.headingLevel?
  split
  · cases he
  · rfl

theorem levels_step {r : Renderer} {p q : Place} {e : Event} (h : p.after? e = some q)
    (hopen : r.headings.isOpen = decide (p = .heading)) (line : Option Nat) :
    (r.step e line).headings.levels = r.headings.levels ++ e.headingLevel?.toList := by
  cases he : e.isHeadingMark with
  | false =>
    rw [Headings.levels, frame_step r he, headingLevel?_of_not_isHeadingMark he]
    exact (List.append_nil _).symm
  | true =>
    unfold Event.isHeadingMark at he
    split at he
    · -- a heading starts where none is open
      cases p with
      | page =>
        have hclosed : r.headings.opened = none := by simpa [Headings.isOpen] using hopen
        simp [step, startTag, Headings.start, Headings.levels, Headings.frame, hclosed,
          Event.headingLevel?]
      | heading | code => cases h
    · cases p with
      | heading =>
        obtain ⟨opened, hopened⟩ := Option.isSome_iff_exists.1 (show r.headings.opened.isSome = _ from hopen)
        show r.endHeading.headings.levels = _
        rw [endHeading_of_some hopened]
        simp [Headings.levels, Headings.frame, Headings.entry, hopened, Event.headingLevel?]
      | page | code => cases h
    · cases he

theorem levels_steps {r : Renderer} {p q : Place} {es : List (Event × Option Nat)}
    (h : placeAfter? (es.map (·.1)) p = some q)
    (hopen : r.headings.isOpen = decide (p = .heading)) :
    (r.steps es).headings.levels =
      r.headings.levels ++ (es.map (·.1)).filterMap (·.headingLevel?) := by
  induction es generalizing r p with
  | nil => exact (List.append_nil _).symm
  | cons e es ih =>
    obtain ⟨p₁, hp₁, hrest⟩ := Option.bind_eq_some_iff.1 h
    have hlevels := levels_step hp₁ hopen e.2
    have hbehind := ih hrest (isOpen_step hp₁ hopen e.2)
    rw [hlevels, List.append_assoc] at hbehind
    refine hbehind.trans (congrArg _ ?_)
    rw [List.map_cons, List.filterMap_cons]
    cases e.1.headingLevel? <;> rfl

/-! ## Headings that are written -/

/-- The piece is the heading of the entry. -/
def IsHeadingOf (entry : Toc.Entry) (p : Piece) : Prop :=
  ∃ heading : Heading, heading.level = entry.level ∧ heading.id = entry.id ∧ p.html = headingHtml heading

theorem toc_step (r : Renderer) (e : Event) (line : Option Nat) {entry : Toc.Entry}
    (h : entry ∈ (r.step e line).headings.toc) : entry ∈ r.headings.toc ∨
      ∀ place, IsHeadingOf entry ⟨place, r.written e line⟩ := by
  cases he : e.isHeadingMark with
  | false =>
    have hframe : (r.step e line).headings.toc = r.headings.toc :=
      congrArg Prod.fst (frame_step r he line)
    exact .inl (hframe ▸ h)
  | true =>
    unfold Event.isHeadingMark at he
    split at he
    · exact .inl h
    · have h : entry ∈ r.endHeading.headings.toc := h
      cases hopened : r.headings.opened with
      | none =>
        rw [endHeading_of_none hopened] at h
        exact .inl h
      | some opened =>
        rw [endHeading_of_some hopened] at h
        rcases List.mem_append.1 h with h | h
        · exact .inl h
        · obtain rfl := List.mem_singleton.1 h
          refine .inr fun place => ⟨r.headings.completed opened, rfl, rfl, ?_⟩
          have hopened' : r.emptied.headings.opened = some opened := hopened
          show r.emptied.endHeading.output = _
          rw [endHeading_of_some hopened']
          rfl
    · cases he

/-- Every entry of the run has its heading among the pieces. -/
theorem exists_piece_of_mem_toc {r : Renderer} (opened : List Text)
    {es : List (Event × Option Nat)} {entry : Toc.Entry}
    (h : entry ∈ (r.steps es).headings.toc) : entry ∈ r.headings.toc ∨
      ∃ p ∈ r.pieces opened es, IsHeadingOf entry p := by
  induction es generalizing r opened with
  | nil => exact .inl h
  | cons e es ih =>
    rcases ih (openNotes opened e.1) h with hstep | ⟨p, hp, hheading⟩
    · rcases toc_step r e.1 e.2 hstep with hbefore | hheading
      · exact .inl hbefore
      · exact .inr ⟨_, List.mem_cons_self, hheading _⟩
    · exact .inr ⟨p, List.mem_cons_of_mem _ hp, hheading⟩

/-! ## Pages -/

theorem exists_visibleTags?_fillMarkers (toc : List Toc.Entry) (options : Toc.Options) {index : Nat}
    {markers : List Toc.Marker} {html : Text} {ts : List Html.Tag}
    (h : Html.visibleTags? html = some ts)
    (htitles : ∀ marker ∈ markers, marker.title.all Html.isPlain = true) :
    ∃ ts', Html.visibleTags? (fillMarkers toc options index markers html) = some ts' ∧ ts ⊆ ts' := by
  induction markers generalizing index html ts with
  | nil => exact ⟨ts, h, List.Subset.refl ts⟩
  | cons marker markers ih =>
    rw [List.forall_mem_cons] at htitles
    obtain ⟨us, hus, -⟩ := Toc.tagged_render toc options htitles.1
    obtain ⟨ts₁, hts₁, hsub⟩ := Html.exists_visibleTags?_replace h (isPlain_placeholder index)
      (Html.visibleTags?_of_tags? hus)
    rw [fillMarkers, placeholder_eq]
    obtain ⟨ts₂, hts₂, hsub₂⟩ := ih hts₁ htitles.2
    exact ⟨ts₂, hts₂, List.Subset.trans hsub hsub₂⟩

theorem startTag_mem_of_mem_toc (lineOf? : Option (Nat → Nat)) {f : Forest}
    (hfits : f.fits .blocks = true) (hnotes : f.notesApart false = true)
    (hdistinct : (f.events.filterMap (·.definedLabel?)).Nodup) {entry : Toc.Entry}
    (hentry : entry ∈ (({} : Renderer).steps (lined lineOf? f)).headings.toc) {ts : List Html.Tag}
    (hts : Html.visibleTags? ((({} : Renderer).steps (lined lineOf? f)).output ++
      (({} : Renderer).steps (lined lineOf? f)).footnotes.sectionHtml) = some ts) :
    ∃ line, Html.Tag.start (headingName entry.level)
      (.escaped "id" entry.id :: Html.lineAttributes line) ∈ ts := by
  have hturn := inTurn_document lineOf? hfits hnotes
  rw [← map_fst_lined lineOf? f] at hdistinct
  rw [hturn.output_append_sectionHtml hdistinct] at hts
  rcases exists_piece_of_mem_toc [] hentry with hnil | ⟨p, hp, heading, hlevel, hid, hhtml⟩
  · cases hnil
  have hsound := Html.isSound_of_tags? (tags?_headingStart heading) (List.mem_singleton.2 rfl)
  have hstart : (Html.Part.tag (.start (headingName heading.level)
      (headingAttributes heading))).source <:+: p.html := by
    rw [hhtml, headingHtml_eq, Html.source_start, List.append_assoc]
    exact (List.prefix_append _ _).isInfix
  refine ⟨heading.line, ?_⟩
  have hmem := Html.mem_of_isInfix hts hsound (infix_assembledPage hturn ⟨p, hp, hstart⟩)
  rwa [hlevel, headingAttributes, hid] at hmem

/-- Every link of a table of contents has a target: each heading has one entry, in order and with
its level, and the page holds the start of the heading of each entry, with the id of the entry. -/
theorem toc_renderLocated (options : Toc.Options) (lineOf? : Option (Nat → Nat)) {f : Forest}
    (hfits : f.fits .blocks = true) (hnotes : f.notesApart false = true)
    (hdistinct : (f.events.filterMap (·.definedLabel?)).Nodup)
    (hmarkers : ∀ e ∈ f.events, e.OnlyMarkers) :
    let page := (({} : Renderer).renderLocated options lineOf? f.located).1
    page.toc.map (·.level) = f.events.filterMap (·.headingLevel?) ∧
      ∃ ts, Html.visibleTags? page.html = some ts ∧
        (∀ entry ∈ page.toc, ∃ line, Html.Tag.start (headingName entry.level)
          (.escaped "id" entry.id :: Html.lineAttributes line) ∈ ts) ∧
        ∀ e ∈ f.events, ∀ marker, e.marker? = some marker →
          ∃ us, Html.visibleTags? (Toc.render page.toc options marker.title) = some us ∧
            ∀ t ∈ us, ∀ v, ⟨"href", some v⟩ ∈ t.attributes →
              ∃ id : Text, v = "#" ++ id ∧ ∃ t' ∈ ts, ⟨"id", some id⟩ ∈ t'.attributes := by
  intro page
  have hplace := Forest.placeAfter?_events hfits (p := .page) rfl
  rw [← map_fst_lined lineOf? f] at hplace
  have hlevels := levels_steps (r := {}) hplace rfl
  have hclosed := isOpen_steps (r := {}) hplace rfl
  have htoc : page.toc.map (·.level) = f.events.filterMap (·.headingLevel?) := by
    have hclosed : (({} : Renderer).steps (lined lineOf? f)).headings.opened = none := by
      simpa [Headings.isOpen] using hclosed
    rw [Headings.levels, Headings.frame, hclosed, map_fst_lined] at hlevels
    rw [show page.toc = (({} : Renderer).steps (lined lineOf? f)).headings.toc from rfl]
    simpa [Headings.levels, Headings.frame] using hlevels
  obtain ⟨houtput, hsound⟩ := walk_output lineOf? hfits hnotes hmarkers
  obtain ⟨ts₀, hts₀, -⟩ := houtput.append (balanced_sectionHtml hsound.notes [])
  obtain ⟨ts, hts, hsub⟩ : ∃ ts, Html.visibleTags? page.html = some ts ∧ ts₀ ⊆ ts :=
    exists_visibleTags?_fillMarkers page.toc options hts₀ hsound.titles
  have hheadings : ∀ entry ∈ page.toc, ∃ line, Html.Tag.start (headingName entry.level)
      (.escaped "id" entry.id :: Html.lineAttributes line) ∈ ts := by
    intro entry hentry
    obtain ⟨line, hmem⟩ := startTag_mem_of_mem_toc lineOf? hfits hnotes hdistinct hentry hts₀
    exact ⟨line, hsub hmem⟩
  refine ⟨htoc, ts, hts, hheadings, fun e he marker hmarker => ?_⟩
  obtain ⟨us, hus, hlinks⟩ := Toc.tagged_render page.toc options
    (Event.isPlain_title_of_marker? (hmarkers e he) hmarker)
  refine ⟨us, Html.visibleTags?_of_tags? hus, fun t ht v hv => ?_⟩
  obtain ⟨entry, hentry, rfl⟩ := hlinks t ht v hv
  obtain ⟨line, hmem⟩ := hheadings entry hentry
  exact ⟨Html.escape entry.id, rfl, _, hmem, List.mem_cons_self⟩

/-- A marker, a heading, and behind them headings in a list and in a quote of a footnote. -/
def scatteredHeadings : Forest :=
  .element .htmlBlock 0 17 (.leaf (.html "<!-- mdv-toc -->\n") 0 .nil) <|
  .element (.heading 1 none) 18 24 (.leaf (.text "One") 20 .nil) <|
  .element (.list none) 25 40
    (.element .item 25 40 (.element (.heading 3 (some "a\"b")) 27 40 (.leaf (.text "Two") 31 .nil) .nil)
      .nil) <|
  .element (.footnoteDefinition "n") 41 60
    (.element (.blockQuote none) 47 60 (.element (.heading 2 none) 49 60 (.leaf (.text "One") 52 .nil)
      .nil) .nil) .nil

theorem toc_scatteredHeadings :
    scatteredHeadings.fits .blocks = true ∧ scatteredHeadings.notesApart false = true ∧
      (scatteredHeadings.events.filterMap (·.definedLabel?)).Nodup ∧
      (∀ e ∈ scatteredHeadings.events, e.OnlyMarkers) ∧
      let page := (({} : Renderer).renderLocated {} (some (· / 10 + 1)) scatteredHeadings.located).1
      page.toc.map (·.level) = [1, 3, 2] ∧
        ∃ ts, Html.visibleTags? page.html = some ts ∧
          (∀ entry ∈ page.toc, ∃ line, Html.Tag.start (headingName entry.level)
            (.escaped "id" entry.id :: Html.lineAttributes line) ∈ ts) ∧
          ∀ e ∈ scatteredHeadings.events, ∀ marker, e.marker? = some marker →
            ∃ us, Html.visibleTags? (Toc.render page.toc {} marker.title) = some us ∧
              ∀ t ∈ us, ∀ v, ⟨"href", some v⟩ ∈ t.attributes →
                ∃ id : Text, v = "#" ++ id ∧ ∃ t' ∈ ts, ⟨"id", some id⟩ ∈ t'.attributes := by
  have hfits : scatteredHeadings.fits .blocks = true := by decide
  have hnotes : scatteredHeadings.notesApart false = true := by decide
  have hdistinct : (scatteredHeadings.events.filterMap (·.definedLabel?)).Nodup := by decide
  have hmarkers : ∀ e ∈ scatteredHeadings.events, e.OnlyMarkers := by
    have hcomment : Toc.Marker.IsComment "<!-- mdv-toc -->\n" :=
      ⟨⟨none⟩, [], "\n", rfl, by decide, by decide⟩
    simpa [scatteredHeadings, Event.OnlyMarkers] using hcomment
  exact ⟨hfits, hnotes, hdistinct, hmarkers,
    toc_renderLocated {} (some (· / 10 + 1)) hfits hnotes hdistinct hmarkers⟩

end Renderer

end Galley.Render
