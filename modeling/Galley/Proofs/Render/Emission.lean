import Galley.Proofs.Markdown.Place
import Galley.Proofs.Render.Capture
import Galley.Proofs.Render.Payload

/-!
# What one event writes

Beside the marks of headings and footnotes, an event writes one text: inside the open heading if the
event is inline content, and else to the page. `Renderer.emitted` is this text, whatever the page
and the heading hold, and `adds_step` says where it goes. So what holds of the text that each event
writes, and lasts when texts are put together, holds of everything that a run writes
(`Lasts.pieces`).
-/

namespace Galley.Markdown

def TagEnd.isInline : TagEnd → Bool
  | .emphasis | .strong | .strikethrough | .superscript | .subscript | .link | .image => true
  | _ => false

/-- Whether what the event writes goes into the open heading. -/
def Event.goesInline : Event → Bool
  | .start tag => tag.isInline
  | .stop tag => tag.isInline
  | .text _ | .code _ | .inlineMath _ | .displayMath _ | .footnoteReference _ | .softBreak => true
  | .html _ | .inlineHtml _ | .hardBreak | .rule | .taskMarker _ => false

end Galley.Markdown

namespace Galley.Render

open Markdown (Event Tag TagEnd openNotes)

namespace Headings

/-- The heading that an open one becomes at its end. -/
def completed (hs : Headings) (opened : OpenHeading) : Heading where
  level := opened.level
  id := idOf hs.ids opened
  line := opened.line
  html := opened.html

def entry (hs : Headings) (opened : OpenHeading) : Toc.Entry where
  level := opened.level
  title := Text.trim opened.text
  id := idOf hs.ids opened

end Headings

namespace Renderer

/-! ## The text of an event -/

/-- The state apart from its page and its open heading. -/
def apart (r : Renderer) : Renderer :=
  { r.emptied with headings := { r.headings with opened := none } }

/-- What an event writes to the page or to the open heading. -/
def emitted (r : Renderer) (e : Event) (line : Option Nat) : Text := (r.apart.step e line).output

/-- Between the two states `out` was added to the page and `head` to the open heading. -/
structure Adds (r r' : Renderer) (out head : Text) : Prop where
  output : r'.output = r.output ++ out
  heading : r'.headings.openHtml = r.headings.openHtml.map fun h => (h.1, h.2 ++ head)

namespace Adds

variable {r r₁ : Renderer} {out head : Text}

theorem of_output (houtput : r₁.output = r.output ++ out) (hheadings : r₁.headings = r.headings) :
    Adds r r₁ out [] where
  output := houtput
  heading := by simp [hheadings]

theorem isOpen (h : Adds r r₁ out head) : r₁.headings.isOpen = r.headings.isOpen := by
  simp [Headings.isOpen_eq, h.heading]

end Adds

section inline

variable {r r₀ : Renderer}

/-- What is written inline goes into the open heading, if there is one. -/
structure AddsInline (r r' : Renderer) (html : Text) : Prop where
  heading : r.headings.isOpen = true → Adds r r' [] html
  page : r.headings.isOpen = false → Adds r r' html []

theorem addsInline_writeInline (r r₀ : Renderer) (houtput : r₀.output = r.output)
    (hheading : r₀.headings.openHtml = r.headings.openHtml) (html : Text) :
    AddsInline r (r₀.writeInline html) html := by
  have hopen : r₀.headings.isOpen = r.headings.isOpen := by
    rw [Headings.isOpen_eq, Headings.isOpen_eq, hheading]
  refine ⟨fun h => ?_, fun h => ?_⟩
  · have hwrites := Writes.writeInline_of_isOpen (hopen.trans h) html
    exact ⟨hwrites.output.trans (by rw [houtput]), hwrites.heading.trans (by rw [hheading])⟩
  · have hwrites := Writes.writeInline_of_not_isOpen (hopen.trans h) html
    exact ⟨hwrites.output.trans (by rw [houtput]), hwrites.heading.trans (by rw [hheading])⟩

theorem AddsInline.silent (houtput : r₀.output = r.output) (hheadings : r₀.headings = r.headings) :
    AddsInline r r₀ [] := by
  have hadds : Adds r r₀ [] [] := Adds.of_output (houtput.trans (List.append_nil _).symm) hheadings
  exact ⟨fun _ => hadds, fun _ => hadds⟩

theorem addsInline_noteText (r : Renderer) (text html : Text) :
    AddsInline r ((r.noteText text).writeInline html) html :=
  addsInline_writeInline r (r.noteText text) rfl (Headings.openHtml_pushText r.headings text) html

theorem addsInline_text (r : Renderer) (text : Text) (line : Option Nat) :
    AddsInline r (r.text text) (r.emitted (.text text) line) := by
  have hemitted : r.emitted (.text text) line = (r.apart.text text).output := rfl
  rw [hemitted]
  obtain ⟨output, code, table, image, headings, footnotes, saved, quotes, inMetadata, markers⟩ := r
  cases inMetadata with
  | true => exact .silent rfl rfl
  | false =>
    cases code with
    | some _ => exact .silent rfl rfl
    | none =>
      cases image with
      | some _ => exact .silent rfl rfl
      | none => exact addsInline_noteText _ text (Html.escape text)

theorem addsInline_endImage (r : Renderer) (line : Option Nat) :
    AddsInline r r.endImage (r.emitted (.stop .image) line) := by
  have hemitted : r.emitted (.stop .image) line = r.apart.endImage.output := rfl
  rw [hemitted]
  cases himage : r.image with
  | none =>
    have himage' : r.apart.image = none := himage
    rw [endImage_of_none himage, endImage_of_none himage']
    exact .silent rfl rfl
  | some image =>
    have himage' : r.apart.image = some image := himage
    rw [endImage_of_some himage, endImage_of_some himage']
    have hinline := addsInline_writeInline r r rfl rfl (Html.image image.url image.alt image.title)
    exact ⟨fun h => ⟨(hinline.heading h).output, (hinline.heading h).heading⟩,
      fun h => ⟨(hinline.page h).output, (hinline.page h).heading⟩⟩

/-- Inline content is written into the open heading, and else to the page. -/
theorem addsInline_step (r : Renderer) {e : Event} (he : e.goesInline = true) (line : Option Nat) :
    AddsInline r (r.step e line) (r.emitted e line) := by
  cases e with
  | start tag =>
    cases tag with
    | image _ _ => exact .silent rfl rfl
    | emphasis | strong | strikethrough | superscript | subscript | link _ _ =>
      exact addsInline_writeInline r r rfl rfl _
    | _ => cases he
  | stop tag =>
    cases tag with
    | image => exact addsInline_endImage r line
    | emphasis | strong | strikethrough | superscript | subscript | link =>
      exact addsInline_writeInline r r rfl rfl _
    | _ => cases he
  | text text => exact addsInline_text r text line
  | code _ | inlineMath _ | displayMath _ | softBreak => exact addsInline_noteText r _ _
  | footnoteReference label =>
    exact addsInline_writeInline r { r with footnotes := r.footnotes.refer label } rfl rfl _
  | html _ | inlineHtml _ | hardBreak | rule | taskMarker _ => cases he

end inline

/-- All other events write to the page; raw HTML may do both. -/
theorem adds_step (r : Renderer) {e : Event} (hinline : e.goesInline = false)
    (hraw : e.isRaw = false) (hheading : e.isHeadingMark = false) (hnote : e.isNoteMark = false)
    (line : Option Nat) : Adds r (r.step e line) (r.emitted e line) [] := by
  cases e with
  | start tag =>
    cases tag with
    | blockQuote kind => cases kind <;> exact Adds.of_output rfl rfl
    | heading _ _ => cases hheading
    | footnoteDefinition _ => cases hnote
    | codeBlock _ | metadata | htmlBlock => exact Adds.of_output (List.append_nil _).symm rfl
    | emphasis | strong | strikethrough | superscript | subscript | link _ _ | image _ _ =>
      cases hinline
    | _ => exact Adds.of_output rfl rfl
  | stop tag =>
    cases tag with
    | heading _ => cases hheading
    | footnoteDefinition => cases hnote
    | blockQuote kind =>
      have hemitted : r.emitted (.stop (.blockQuote kind)) line = r.apart.endQuote.output := rfl
      rw [hemitted]
      show Adds r r.endQuote _ _
      obtain ⟨output, code, table, image, headings, footnotes, saved, quotes, inMetadata, markers⟩ := r
      cases quotes with
      | nil => exact Adds.of_output rfl rfl
      | cons kind quotes => cases kind <;> exact Adds.of_output rfl rfl
    | metadata | htmlBlock => exact Adds.of_output (List.append_nil _).symm rfl
    | emphasis | strong | strikethrough | superscript | subscript | link | image => cases hinline
    | _ => exact Adds.of_output rfl rfl
  | html _ | inlineHtml _ => cases hraw
  | hardBreak | rule | taskMarker _ => exact Adds.of_output rfl rfl
  | text _ | code _ | inlineMath _ | displayMath _ | footnoteReference _ | softBreak => cases hinline

/-! ## Pieces -/

section pieces

variable {r : Renderer} {e : Event} {line : Option Nat} {out head : Text}

theorem Adds.written_eq (h : Adds r (r.step e line) out head) (he : e.isNoteMark = false) :
    r.written e line = out := by
  have houtput := h.output
  rw [output_step r line he] at houtput
  exact List.append_cancel_left houtput

theorem headings_endFootnote (r : Renderer) : r.endFootnote.headings = r.headings := by
  unfold endFootnote
  split
  · split <;> rfl
  · rfl

theorem headings_step_of_isNoteMark (r : Renderer) (he : e.isNoteMark = true) (line : Option Nat) :
    (r.step e line).headings = r.headings := by
  unfold Event.isNoteMark at he
  split at he
  · rfl
  · exact headings_endFootnote r
  · cases he

theorem endHeading_of_none (h : r.headings.opened = none) : r.endHeading = r := by
  rw [endHeading, Headings.complete, h]
  rfl

theorem endHeading_of_some {opened : OpenHeading} (h : r.headings.opened = some opened) :
    r.endHeading = { r.write (headingHtml (r.headings.completed opened)) with
      headings := { opened := none
                    toc := r.headings.toc ++ [r.headings.entry opened]
                    ids := r.headings.ids.use opened.baseId } } := by
  rw [endHeading, Headings.complete, h]
  rfl

/-- The text that the open heading holds so far, if there is one, is a `P`. -/
def OpenHas (P : Text → Prop) (r : Renderer) : Prop :=
  ∀ opened, r.headings.openHtml = some opened → P opened.2

theorem openHas_iff {P : Text → Prop} :
    OpenHas P r ↔ ∀ opened, r.headings.opened = some opened → P opened.html := by
  simp [OpenHas, Headings.openHtml]

/-- What holds of texts lasts when they are put together and when a heading is made of them. -/
structure Lasts (P : Text → Prop) : Prop where
  nil : P []
  append : ∀ {u v : Text}, P u → P v → P (u ++ v)
  heading : ∀ {heading : Heading}, P heading.html → P (headingHtml heading)

namespace Lasts

variable {P : Text → Prop}

theorem openHas_adds (hP : Lasts P) {r' : Renderer} (h : Adds r r' out head) (hopen : OpenHas P r)
    (hhead : P head) : OpenHas P r' := by
  intro opened hopened
  rw [h.heading] at hopened
  obtain ⟨before, hbefore, rfl⟩ := Option.map_eq_some_iff.1 hopened
  exact hP.append (hopen before hbefore) hhead

theorem endHeading (hP : Lasts P) (hopen : OpenHas P r) (level : Nat) (line : Option Nat) :
    P (r.written (.stop (.heading level)) line) ∧ OpenHas P r.endHeading := by
  show P r.emptied.endHeading.output ∧ _
  cases hopened : r.headings.opened with
  | none =>
    have hopened' : r.emptied.headings.opened = none := hopened
    rw [endHeading_of_none hopened, endHeading_of_none hopened']
    exact ⟨hP.nil, hopen⟩
  | some opened =>
    have hopened' : r.emptied.headings.opened = some opened := hopened
    have hhtml : P opened.html := openHas_iff.1 hopen opened hopened
    rw [endHeading_of_some hopened, endHeading_of_some hopened']
    exact ⟨hP.heading hhtml, fun _ hnone => by cases hnone⟩

/-- What is written is a `P` if what the event writes on its own is one. -/
theorem step (hP : Lasts P) (hopen : OpenHas P r) (hraw : e.isRaw = false) (line : Option Nat)
    (hemitted : e.isHeadingMark = false → e.isNoteMark = false → P (r.emitted e line)) :
    P (r.written e line) ∧ OpenHas P (r.step e line) := by
  cases hnote : e.isNoteMark with
  | true =>
    rw [written_of_isNoteMark r hnote, OpenHas, headings_step_of_isNoteMark r hnote]
    exact ⟨hP.nil, hopen⟩
  | false =>
  cases hheading : e.isHeadingMark with
  | true =>
    unfold Event.isHeadingMark at hheading
    split at hheading
    · refine ⟨hP.nil, fun opened hopened => ?_⟩
      obtain rfl := Option.some.inj hopened
      exact hP.nil
    · exact hP.endHeading hopen _ line
    · cases hheading
  | false =>
  have hemitted := hemitted hheading hnote
  cases hinline : e.goesInline with
  | false =>
    have hadds := adds_step r hinline hraw hheading hnote line
    rw [hadds.written_eq hnote]
    exact ⟨hemitted, hP.openHas_adds hadds hopen hP.nil⟩
  | true =>
    have hadds := addsInline_step r hinline line
    cases hisOpen : r.headings.isOpen with
    | true =>
      -- nothing is written until the heading ends
      have hadds := hadds.heading hisOpen
      rw [hadds.written_eq hnote]
      exact ⟨hP.nil, hP.openHas_adds hadds hopen hemitted⟩
    | false =>
      have hadds := hadds.page hisOpen
      rw [hadds.written_eq hnote]
      exact ⟨hemitted, hP.openHas_adds hadds hopen hP.nil⟩

/-- What holds of the text of each event holds of every piece. -/
theorem pieces (hP : Lasts P) (opened : List Text) {es : List (Event × Option Nat)}
    (hopen : OpenHas P r) (hes : ∀ es₁ e line es₂, es = es₁ ++ (e, line) :: es₂ →
      e.isRaw = false ∧ (e.isHeadingMark = false → e.isNoteMark = false →
        P ((r.steps es₁).emitted e line))) :
    (∀ p ∈ r.pieces opened es, P p.html) ∧ OpenHas P (r.steps es) := by
  induction es generalizing r opened with
  | nil => exact ⟨fun p hp => absurd hp List.not_mem_nil, hopen⟩
  | cons first es ih =>
    obtain ⟨e, line⟩ := first
    obtain ⟨hraw, hemitted⟩ := hes [] e line es rfl
    obtain ⟨hwritten, hopen'⟩ := hP.step hopen hraw line hemitted
    have hbehind := ih (openNotes opened e) hopen' fun es₁ e' line' es₂ heq =>
      hes ((e, line) :: es₁) e' line' es₂ (congrArg _ heq)
    exact ⟨List.forall_mem_cons.2 ⟨hwritten, hbehind.1⟩, hbehind.2⟩

end Lasts

end pieces

/-! ## Places -/

theorem isOpen_rawHtml (r : Renderer) (html : Text) :
    (r.rawHtml html).headings.isOpen = r.headings.isOpen := by
  unfold rawHtml
  split
  · cases hopen : r.headings.isOpen with
    | true => exact (Writes.writeInline_of_isOpen hopen html).isOpen.trans hopen
    | false => exact (Writes.writeInline_of_not_isOpen hopen html).isOpen.trans hopen
  · rfl

theorem isOpen_step_of_not_isHeadingMark (r : Renderer) {e : Event} (he : e.isHeadingMark = false)
    (line : Option Nat) : (r.step e line).headings.isOpen = r.headings.isOpen := by
  cases hraw : e.isRaw with
  | true =>
    cases e with
    | html html | inlineHtml html => exact isOpen_rawHtml r html
    | _ => cases hraw
  | false =>
  cases hnote : e.isNoteMark with
  | true => rw [headings_step_of_isNoteMark r hnote]
  | false =>
  cases hinline : e.goesInline with
  | false => exact (adds_step r hinline hraw he hnote line).isOpen
  | true =>
    have hadds := addsInline_step r hinline line
    cases hopen : r.headings.isOpen with
    | true => exact (hadds.heading hopen).isOpen.trans hopen
    | false => exact (hadds.page hopen).isOpen.trans hopen

/-- A heading is open while the events stand in one. -/
theorem isOpen_step {r : Renderer} {p q : Markdown.Place} {e : Event} (h : p.after? e = some q)
    (hopen : r.headings.isOpen = decide (p = .heading)) (line : Option Nat) :
    (r.step e line).headings.isOpen = decide (q = .heading) := by
  cases he : e.isHeadingMark with
  | false =>
    rw [isOpen_step_of_not_isHeadingMark r he, hopen, decide_eq_decide]
    exact (Markdown.Place.eq_heading_iff_of_after? h he).symm
  | true =>
    unfold Event.isHeadingMark at he
    split at he
    · cases p <;> cases h
      rfl
    · cases p with
      | heading =>
        cases h
        show r.endHeading.headings.isOpen = false
        cases hopened : r.headings.opened with
        | none => rw [endHeading_of_none hopened, Headings.isOpen, hopened]; rfl
        | some opened => rw [endHeading_of_some hopened]; rfl
      | page | code => cases h
    · cases he

theorem isOpen_steps {r : Renderer} {p q : Markdown.Place} {es : List (Event × Option Nat)}
    (h : Markdown.placeAfter? (es.map (·.1)) p = some q)
    (hopen : r.headings.isOpen = decide (p = .heading)) :
    (r.steps es).headings.isOpen = decide (q = .heading) := by
  induction es generalizing r p with
  | nil =>
    obtain rfl := Option.some.inj h
    exact hopen
  | cons e es ih =>
    obtain ⟨p₁, hp₁, hrest⟩ := Option.bind_eq_some_iff.1 h
    exact ih hrest (isOpen_step hp₁ hopen e.2)

end Renderer

end Galley.Render
