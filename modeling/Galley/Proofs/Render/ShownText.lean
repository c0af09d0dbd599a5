import Galley.Proofs.Render.Capture
import Galley.Proofs.Render.Payload

/-!
# Texts that are shown

Every text of a document stands in what some event wrote: that of the text itself, or, where texts
are collected first, that of the end of the code block or of the heading. With what was captured
of footnotes, every text is on the page.
-/

namespace Galley.Markdown

/-- Whether the event is neither raw HTML nor the start of metadata or of an image. -/
def Event.isShown : Event → Bool
  | .html _ | .inlineHtml _ | .start .metadata | .start (.image _ _) => false
  | _ => true

theorem Event.isRaw_of_isShown {e : Event} (h : e.isShown = true) : e.isRaw = false := by
  cases e with
  | html _ | inlineHtml _ => cases h
  | _ => rfl

theorem Event.onlyMarkers_of_isRaw {e : Event} (h : e.isRaw = false) : e.OnlyMarkers := by
  cases e with
  | html _ | inlineHtml _ => cases h
  | _ => trivial

namespace Forest

/-- The texts of the forest as a page shows them: escaped, and inside a heading perhaps without the
blanks at the ends. -/
def shownTexts (inHeading : Bool) : Forest → List Text
  | .nil => []
  | .leaf (.text text) _ rest =>
    (if inHeading then Text.trim (Html.escape text) else Html.escape text) ::
      rest.shownTexts inHeading
  | .leaf _ _ rest => rest.shownTexts inHeading
  | .element (.heading _ _) _ _ inner rest => inner.shownTexts true ++ rest.shownTexts inHeading
  | .element _ _ _ inner rest => inner.shownTexts inHeading ++ rest.shownTexts inHeading

end Forest

end Galley.Markdown

namespace Galley.Render.Renderer

open Markdown (Content Event Forest Tag TagEnd openNotes)

/-! ## Collected texts -/

/-- No code block, image or metadata is open. -/
structure Quiet (r : Renderer) : Prop where
  code : r.code = none
  image : r.image = none
  metadata : r.inMetadata = false

namespace Quiet

variable {r : Renderer}

theorem writeInline (h : Quiet r) (html : Text) : Quiet (r.writeInline html) := by
  unfold Renderer.writeInline
  split <;> exact ⟨h.code, h.image, h.metadata⟩

theorem text_eq (h : Quiet r) (text : Text) :
    r.text text = (r.noteText text).writeInline (Html.escape text) := by
  unfold Renderer.text
  rw [h.metadata, h.code, h.image]
  rfl

theorem startTag {tag : Tag} (h : Quiet r) (hshown : (Event.start tag).isShown = true)
    (hcode : tag.content ≠ .literal) (line : Option Nat) : Quiet (r.startTag tag line) := by
  cases tag with
  | codeBlock _ => exact absurd rfl hcode
  | metadata | image _ _ => cases hshown
  | blockQuote kind => cases kind <;> exact ⟨h.code, h.image, h.metadata⟩
  | emphasis | strong | strikethrough | superscript | subscript | link _ _ =>
    exact h.writeInline _
  | _ => exact ⟨h.code, h.image, h.metadata⟩

theorem endTag (h : Quiet r) (tag : TagEnd) : Quiet (r.endTag tag) := by
  cases tag with
  | heading _ =>
    show Quiet r.endHeading
    unfold endHeading
    split <;> exact ⟨h.code, h.image, h.metadata⟩
  | blockQuote _ =>
    show Quiet r.endQuote
    unfold endQuote
    split <;> exact ⟨h.code, h.image, h.metadata⟩
  | footnoteDefinition =>
    show Quiet r.endFootnote
    unfold endFootnote
    split
    · split <;> exact ⟨h.code, h.image, h.metadata⟩
    · exact h
  | image =>
    show Quiet r.endImage
    unfold endImage
    rw [h.image]
    exact h
  | emphasis | strong | strikethrough | superscript | subscript | link => exact h.writeInline _
  | codeBlock => exact ⟨rfl, h.image, h.metadata⟩
  | metadata => exact ⟨h.code, h.image, rfl⟩
  | _ => exact ⟨h.code, h.image, h.metadata⟩

theorem noteText (h : Quiet r) (text : Text) : Quiet (r.noteText text) :=
  ⟨h.code, h.image, h.metadata⟩

theorem step {e : Event} (h : Quiet r) (hstart : ∀ tag, e ≠ .start tag)
    (hstop : ∀ tag, e ≠ .stop tag) (hshown : e.isShown = true) (line : Option Nat) :
    Quiet (r.step e line) := by
  cases e with
  | start tag => exact absurd rfl (hstart tag)
  | stop tag => exact absurd rfl (hstop tag)
  | text text =>
    show Quiet (r.text text)
    rw [h.text_eq]
    exact (h.noteText text).writeInline _
  | html _ | inlineHtml _ => cases hshown
  | code _ | inlineMath _ | displayMath _ | softBreak => exact (h.noteText _).writeInline _
  | footnoteReference label =>
    have hrefer : Quiet { r with footnotes := r.footnotes.refer label } :=
      ⟨h.code, h.image, h.metadata⟩
    exact hrefer.writeInline _
  | hardBreak | rule | taskMarker _ => exact ⟨h.code, h.image, h.metadata⟩

end Quiet

/-! ## Headings -/

def InHeading (r : Renderer) (text : Text) : Prop :=
  ∃ h, r.headings.openHtml = some h ∧ text <:+: h.2

theorem InHeading.of_heading {r r' : Renderer} {text head : Text} (h : r.InHeading text)
    (hheading : r'.headings.openHtml = r.headings.openHtml.map fun h => (h.1, h.2 ++ head)) :
    r'.InHeading text := by
  obtain ⟨opened, hopened, htext⟩ := h
  refine ⟨(opened.1, opened.2 ++ head), ?_, htext.trans (List.prefix_append _ _).isInfix⟩
  rw [hheading, hopened]
  rfl

theorem inHeading_writeInline {r : Renderer} (hopen : r.headings.isOpen = true) (html : Text) :
    (r.writeInline html).InHeading html := by
  rw [Headings.isOpen_eq] at hopen
  obtain ⟨opened, hopened⟩ := Option.isSome_iff_exists.1 hopen
  rw [← Headings.isOpen_eq] at hopen
  refine ⟨(opened.1, opened.2 ++ html), ?_, (List.suffix_append _ _).isInfix⟩
  rw [(Writes.writeInline_of_isOpen hopen html).heading, hopened]
  rfl

theorem exists_writeInline {tag : Tag} (htag : tag.isInline = true)
    (hshown : (Event.start tag).isShown = true) :
    ∃ start stop, (∀ (r : Renderer) line, r.startTag tag line = r.writeInline start) ∧
      ∀ r : Renderer, r.endTag tag.toEnd = r.writeInline stop := by
  cases tag with
  | emphasis | strong | strikethrough | superscript | subscript | link _ _ =>
    exact ⟨_, _, fun _ _ => rfl, fun _ => rfl⟩
  | image _ _ => cases hshown
  | _ => cases htag

theorem isOpen_writeInline {r : Renderer} (hopen : r.headings.isOpen = true) (html : Text) :
    (r.writeInline html).headings.isOpen = true :=
  (Writes.writeInline_of_isOpen hopen html).isOpen.trans hopen

/-! ## Documents -/

/-- The forest is well-nested content of which every text is shown. -/
structure Shown (c : Content) (inside : Bool) (f : Forest) : Prop where
  fits : f.fits c = true
  notes : f.notesApart inside = true
  events : ∀ e ∈ f.events, e.isShown = true

namespace Shown

variable {c : Content} {inside : Bool} {f inner rest : Forest} {e : Event} {tag : Tag}
  {offset start stop : Nat}

theorem onlyMarkers (h : Shown c inside f) : ∀ e ∈ f.events, e.OnlyMarkers :=
  fun e he => Event.onlyMarkers_of_isRaw (Event.isRaw_of_isShown (h.events e he))

theorem leaf (h : Shown c inside (.leaf e offset rest)) :
    c.admits e = true ∧ e.isShown = true ∧ Shown c inside rest := by
  obtain ⟨hfits, hnotes, hevents⟩ := h
  obtain ⟨hadmits, hrest⟩ := Forest.fits_leaf_iff.1 hfits
  obtain ⟨hshown, heventsRest⟩ := Forest.forall_mem_events_leaf_iff.1 hevents
  exact ⟨hadmits, hshown, hrest, hnotes, heventsRest⟩

theorem element (h : Shown c inside (.element tag start stop inner rest)) :
    c.holds tag = true ∧ (inside && tag.isNote) = false ∧ (Event.start tag).isShown = true ∧
      Shown tag.content (inside || tag.isNote) inner ∧ Shown c.after inside rest := by
  obtain ⟨hfits, hnotes, hevents⟩ := h
  obtain ⟨hholds, hinner, hrest⟩ := Forest.fits_element_iff.1 hfits
  simp only [Forest.notesApart, Bool.and_eq_true, Bool.not_eq_true'] at hnotes
  obtain ⟨⟨hnote, hnotesInner⟩, hnotesRest⟩ := hnotes
  obtain ⟨hshown, heventsInner, -, heventsRest⟩ := Forest.forall_mem_events_element_iff.1 hevents
  exact ⟨hholds, hnote, hshown, ⟨hinner, hnotesInner, heventsInner⟩, ⟨hrest, hnotesRest, heventsRest⟩⟩

end Shown

section forests

variable {c : Content} {inside : Bool} {r : Renderer} {f : Forest}

theorem steps_lined_leaf (r : Renderer) (lineOf? : Option (Nat → Nat)) (e : Event) (offset : Nat)
    (rest : Forest) : r.steps (lined lineOf? (.leaf e offset rest)) =
      (r.step e (lineOf?.map (· offset))).steps (lined lineOf? rest) := rfl

theorem collects_literal (lineOf? : Option (Nat → Nat)) {code : OpenCode} (h : Shown .literal inside f)
    (hcode : r.code = some code) (himage : r.image = none) (hmetadata : r.inMetadata = false) :
    ∃ code', (r.steps (lined lineOf? f)).code = some code' ∧
      (r.steps (lined lineOf? f)).image = none ∧
      (r.steps (lined lineOf? f)).inMetadata = false ∧
      Html.escape code.content <:+: Html.escape code'.content ∧
      ∀ s ∈ f.shownTexts false, s <:+: Html.escape code'.content := by
  induction f generalizing r code with
  | nil =>
    refine ⟨code, hcode, himage, hmetadata, List.infix_rfl, ?_⟩
    intro s hs
    cases hs
  | leaf e offset rest ih =>
    obtain ⟨hadmits, -, hrest⟩ := h.leaf
    cases e with
    | text text =>
      have hstep : r.step (.text text) (lineOf?.map (· offset)) =
          { r with code := some { code with content := code.content ++ text } } := by
        show r.text text = _
        unfold Renderer.text
        rw [hmetadata, hcode]
        rfl
      rw [steps_lined_leaf, hstep]
      obtain ⟨code', hcode', himage', hmetadata', hinfix, htexts⟩ :=
        ih (r := { r with code := some { code with content := code.content ++ text } }) hrest rfl
          himage hmetadata
      rw [Html.escape_append] at hinfix
      refine ⟨code', hcode', himage', hmetadata', ?_, ?_⟩
      · exact (List.prefix_append _ _).isInfix.trans hinfix
      · intro s hs
        rcases List.mem_cons.1 hs with rfl | hs
        · exact (List.suffix_append _ _).isInfix.trans hinfix
        · exact htexts s hs
    | _ => cases hadmits
  | element tag start stop inner rest ihInner ihRest =>
    obtain ⟨hholds, -⟩ := h.element
    cases hholds

theorem exists_info_of_literal {tag : Tag} (htag : tag.content = .literal)
    (hshown : (Event.start tag).isShown = true) : ∃ info, tag = .codeBlock info := by
  cases tag with
  | codeBlock info => exact ⟨info, rfl⟩
  | metadata => cases hshown
  | _ => cases htag

theorem quiet_element (lineOf? : Option (Nat → Nat)) {tag : Tag} {inner : Forest} (line : Option Nat)
    (hinner : Shown tag.content inside inner) (hshown : (Event.start tag).isShown = true)
    (hquiet : Quiet r) (hdeep : tag.content ≠ .literal → Quiet (r.startTag tag line) →
      Quiet ((r.startTag tag line).steps (lined lineOf? inner))) :
    Quiet (((r.startTag tag line).steps (lined lineOf? inner)).endTag tag.toEnd) := by
  by_cases hliteral : tag.content = .literal
  · obtain ⟨info, rfl⟩ := exists_info_of_literal hliteral hshown
    obtain ⟨code, -, himage, hmetadata, -⟩ :=
      collects_literal (r := r.startTag (.codeBlock info) line) lineOf? hinner rfl hquiet.image
        hquiet.metadata
    exact ⟨rfl, himage, hmetadata⟩
  · exact (hdeep hliteral (hquiet.startTag hshown hliteral line)).endTag _

theorem after_ne_literal {c : Content} (hc : c ≠ .literal) : c.after ≠ .literal := by
  cases c <;> first | exact hc | simp [Content.after]

theorem quiet_forest (lineOf? : Option (Nat → Nat)) (h : Shown c inside f) (hc : c ≠ .literal)
    (hquiet : Quiet r) : Quiet (r.steps (lined lineOf? f)) := by
  induction f generalizing c inside r with
  | nil => exact hquiet
  | leaf e offset rest ih =>
    obtain ⟨hadmits, hshown, hrest⟩ := h.leaf
    obtain ⟨hstart, hstop⟩ := ne_of_admits hadmits
    exact ih hrest hc (hquiet.step hstart hstop hshown _)
  | element tag start stop inner rest ihInner ihRest =>
    obtain ⟨-, -, hshown, hinner, hrest⟩ := h.element
    rw [steps_lined_element]
    exact ihRest hrest (after_ne_literal hc)
      (quiet_element lineOf? _ hinner hshown hquiet (ihInner hinner))

theorem fills_of_shown (lineOf? : Option (Nat → Nat)) (h : Shown c inside f)
    (hready : Ready c inside r) : Fills c r (r.steps (lined lineOf? f)) :=
  fills_forest lineOf? h.fits h.notes h.onlyMarkers hready

theorem inHeading_forest (lineOf? : Option (Nat → Nat)) (h : Shown .inlines inside f)
    (hready : Ready .inlines inside r) (hquiet : Quiet r) (hopen : r.headings.isOpen = true)
    {text : Text} (htext : .text text ∈ f.events) :
    (r.steps (lined lineOf? f)).InHeading (Html.escape text) := by
  induction f generalizing inside r with
  | nil => cases htext
  | leaf e offset rest ih =>
    obtain ⟨hadmits, hshown, hrest⟩ := h.leaf
    obtain ⟨hstart, hstop⟩ := ne_of_admits hadmits
    have hmarkers := h.onlyMarkers e List.mem_cons_self
    obtain ⟨out, head, hwrites, hbalanced⟩ :=
      moves_step hstart hstop hmarkers r (lineOf?.map (· offset)) []
    have hready' := hready.of_moves ⟨out, head, hwrites, hbalanced⟩
    rw [Forest.events_leaf] at htext
    rw [steps_lined_leaf]
    rcases List.mem_cons.1 htext with rfl | htext
    · have hstep : r.step (.text text) (lineOf?.map (· offset)) =
          (r.noteText text).writeInline (Html.escape text) := hquiet.text_eq text
      have hnoted : (r.noteText text).headings.isOpen = true :=
        (Writes.noteText r text).isOpen.trans hopen
      obtain ⟨out', head', hwrites', -⟩ := (fills_of_shown lineOf? hrest hready').moves []
      rw [hstep] at hwrites' ⊢
      exact (inHeading_writeInline hnoted _).of_heading hwrites'.heading
    · exact ih hrest hready' (hquiet.step hstart hstop hshown _) (hwrites.isOpen.trans hopen) htext
  | element tag start stop inner rest ihInner ihRest =>
    obtain ⟨hholds, hnote, hshown, hinner, hrest⟩ := h.element
    obtain ⟨before, after, hbefore, hafter⟩ := exists_writeInline hholds hshown
    have hcontent : tag.content = .inlines := by
      cases tag <;> first | rfl | cases hholds
    have hready₁ := hready.startTag hholds (lineOf?.map (· start))
    have hready₃ := hready.after_element hholds hnote (fills_of_shown lineOf? hinner hready₁)
    have hquiet₁ := hquiet.startTag hshown (by simp [hcontent]) (lineOf?.map (· start))
    have hquiet₂ := quiet_forest lineOf? hinner (by simp [hcontent]) hquiet₁
    rw [hcontent] at hinner hready₁
    rw [hbefore] at hready₁ hready₃ hquiet₁ hquiet₂
    rw [hafter] at hready₃
    have hopen₁ := isOpen_writeInline hopen before
    obtain ⟨out, head, hwrites, -⟩ := (fills_of_shown lineOf? hinner hready₁).moves []
    have hopen₂ := hwrites.isOpen.trans hopen₁
    have hstop := Writes.writeInline_of_isOpen hopen₂ after
    rw [Forest.events_element] at htext
    rw [steps_lined_element, hbefore, hafter]
    rcases List.mem_cons.1 htext with htext | htext
    · cases htext
    rcases List.mem_append.1 htext with htext | htext
    · have hinHeading := ihInner hinner hready₁ hquiet₁ hopen₁ htext
      obtain ⟨out', head', hwrites', -⟩ := (fills_of_shown lineOf? hrest hready₃).moves []
      exact (hinHeading.of_heading hstop.heading).of_heading hwrites'.heading
    · rcases List.mem_cons.1 htext with htext | htext
      · cases htext
      exact ihRest hrest hready₃ (hquiet₂.writeInline after) (isOpen_writeInline hopen₂ after) htext

/-! ## The page -/

def InPieces (ps : List Piece) (text : Text) : Prop := ∃ p ∈ ps, text <:+: p.html

theorem InPieces.mono {ps qs : List Piece} {text : Text} (h : InPieces ps text) (hsub : ps ⊆ qs) :
    InPieces qs text := by
  obtain ⟨p, hp, htext⟩ := h
  exact ⟨p, hsub hp, htext⟩

theorem written_text (hquiet : Quiet r) (hclosed : r.headings.openHtml = none) (text : Text)
    (line : Option Nat) : r.written (.text text) line = Html.escape text := by
  have hempty : Quiet r.emptied := ⟨hquiet.code, hquiet.image, hquiet.metadata⟩
  have hopen : (r.emptied.noteText text).headings.isOpen = false := by
    rw [Headings.isOpen_eq, (Writes.noteText r.emptied text).heading]
    show (Option.map _ r.headings.openHtml).isSome = false
    rw [hclosed]
    rfl
  show (r.emptied.text text).output = _
  rw [hempty.text_eq, (Writes.writeInline_of_not_isOpen hopen _).output]
  rfl

theorem infix_written_stop_codeBlock {code : OpenCode} (hcode : r.code = some code)
    (line : Option Nat) : Html.escape code.content <:+: r.written (.stop .codeBlock) line := by
  have hwritten : r.written (.stop .codeBlock) line =
      Html.codeBlock code.language code.content (Html.lineAttr code.line) := by
    show Html.codeBlock (r.code.getD {}).language (r.code.getD {}).content
      (Html.lineAttr (r.code.getD {}).line) = _
    rw [hcode]
    rfl
  rw [hwritten]
  unfold Html.codeBlock
  cases code.language with
  | none => exact ⟨_, _, rfl⟩
  | some language => exact ⟨_, _, rfl⟩

theorem infix_written_stop_heading {text : Text} (h : r.InHeading text) (level : Nat)
    (line : Option Nat) : Text.trim text <:+: r.written (.stop (.heading level)) line := by
  obtain ⟨html, hhtml, htext⟩ := h
  obtain ⟨opened, hopened, rfl⟩ := Option.map_eq_some_iff.1 hhtml
  have hcomplete : ∃ heading headings, r.headings.complete = some (heading, headings) ∧
      heading.html = opened.html := by
    unfold Headings.complete
    rw [hopened]
    exact ⟨_, _, rfl, rfl⟩
  obtain ⟨heading, headings, hcomplete, hheading⟩ := hcomplete
  have hwritten : r.written (.stop (.heading level)) line = headingHtml heading := by
    have hcomplete : r.emptied.headings.complete = some (heading, headings) := hcomplete
    show r.emptied.endHeading.output = _
    unfold endHeading
    rw [hcomplete]
    rfl
  rw [hwritten, headingHtml_eq, hheading]
  exact (Text.isInfix_trim htext).trans ⟨_, _, rfl⟩

theorem pieces_element (r : Renderer) (opened : List Text) (lineOf? : Option (Nat → Nat)) (tag : Tag)
    (start stop : Nat) (inner rest : Forest) :
    let r₁ := r.startTag tag (lineOf?.map (· start))
    let r₂ := r₁.steps (lined lineOf? inner)
    ∃ opened₁ place opened₂, r.pieces opened (lined lineOf? (.element tag start stop inner rest)) =
      ⟨opened.head?, r.written (.start tag) (lineOf?.map (· start))⟩ ::
        (r₁.pieces opened₁ (lined lineOf? inner) ++
          ⟨place, r₂.written (.stop tag.toEnd) (lineOf?.map (· stop))⟩ ::
            (r₂.endTag tag.toEnd).pieces opened₂ (lined lineOf? rest)) := by
  intro r₁ r₂
  have happend := pieces_append r₁ (openNotes opened (.start tag)) (lined lineOf? inner)
    ((.stop tag.toEnd, lineOf?.map (· stop)) :: lined lineOf? rest)
  rw [lined_element]
  exact ⟨_, _, _, congrArg (List.cons _) happend⟩

theorem exists_text_of_mem_shownTexts {f : Forest} {s : Text} (h : s ∈ f.shownTexts true) :
    ∃ text, .text text ∈ f.events ∧ s = Text.trim (Html.escape text) := by
  induction f with
  | nil => cases h
  | leaf e offset rest ih =>
    have hbehind : s ∈ rest.shownTexts true →
        ∃ text, .text text ∈ (Forest.leaf e offset rest).events ∧ s = Text.trim (Html.escape text) := by
      intro hs
      obtain ⟨text, htext, hs⟩ := ih hs
      exact ⟨text, List.mem_cons_of_mem _ htext, hs⟩
    cases e with
    | text text =>
      rcases List.mem_cons.1 h with rfl | hs
      · exact ⟨text, List.mem_cons_self, rfl⟩
      · exact hbehind hs
    | _ => exact hbehind h
  | element tag start stop inner rest ihInner ihRest =>
    have hs : s ∈ inner.shownTexts true ∨ s ∈ rest.shownTexts true := by
      cases tag <;> exact List.mem_append.1 h
    rw [Forest.events_element]
    rcases hs with hs | hs
    · obtain ⟨text, htext, hs⟩ := ihInner hs
      exact ⟨text, List.mem_cons_of_mem _ (List.mem_append_left _ htext), hs⟩
    · obtain ⟨text, htext, hs⟩ := ihRest hs
      have hmem := List.mem_append_right inner.events (List.mem_cons_of_mem (.stop tag.toEnd) htext)
      exact ⟨text, List.mem_cons_of_mem _ hmem, hs⟩

theorem openHtml_startTag {tag : Tag} (htag : ∀ level id, tag ≠ .heading level id)
    (hclosed : r.headings.openHtml = none) (line : Option Nat) :
    (r.startTag tag line).headings.openHtml = none := by
  have hopen : r.headings.isOpen = false := by
    rw [Headings.isOpen_eq, hclosed]
    rfl
  have hinline : ∀ html, (r.writeInline html).headings.openHtml = none := by
    intro html
    rw [(Writes.writeInline_of_not_isOpen hopen html).heading, hclosed]
    rfl
  cases tag with
  | heading level id => exact absurd rfl (htag level id)
  | blockQuote kind => cases kind <;> exact hclosed
  | emphasis | strong | strikethrough | superscript | subscript | link _ _ => exact hinline _
  | _ => exact hclosed

theorem infix_heading (lineOf? : Option (Nat → Nat)) {level : Nat} {id : Option Text}
    {line : Option Nat} (h : Shown .inlines inside f) (hquiet : Quiet r)
    (hready : Ready .inlines inside (r.startTag (.heading level id) line)) {s : Text}
    (hs : s ∈ f.shownTexts true) (line' : Option Nat) :
    s <:+: ((r.startTag (.heading level id) line).steps (lined lineOf? f)).written
      (.stop (.heading level)) line' := by
  obtain ⟨text, htext, rfl⟩ := exists_text_of_mem_shownTexts hs
  have hquiet₁ : Quiet (r.startTag (.heading level id) line) :=
    ⟨hquiet.code, hquiet.image, hquiet.metadata⟩
  exact infix_written_stop_heading (inHeading_forest lineOf? h hready hquiet₁ rfl htext) level line'

theorem infix_codeBlock (lineOf? : Option (Nat → Nat)) {info : Option Text} {line : Option Nat}
    (h : Shown .literal inside f) (hquiet : Quiet r) {s : Text} (hs : s ∈ f.shownTexts false)
    (line' : Option Nat) :
    s <:+: ((r.startTag (.codeBlock info) line).steps (lined lineOf? f)).written
      (.stop .codeBlock) line' := by
  obtain ⟨code, hcode, -, -, -, htexts⟩ :=
    collects_literal (r := r.startTag (.codeBlock info) line) lineOf? h rfl hquiet.image
      hquiet.metadata
  exact (htexts s hs).trans (infix_written_stop_codeBlock hcode line')

/-- What stands inside an element is written by the end of the element, if this is a heading or a
code block, and else by the events inside it. -/
theorem inPieces_element (lineOf? : Option (Nat → Nat)) (opened : List Text) {tag : Tag}
    {start stop : Nat} {line : Option Nat} {inner rest : Forest}
    (hinner : Shown tag.content inside inner) (hshown : (Event.start tag).isShown = true)
    (hready : Ready tag.content inside (r.startTag tag line)) (hquiet : Quiet r) {s : Text}
    (hs : s ∈ (Forest.element tag start stop inner rest).shownTexts false)
    (hdeep : tag.content ≠ .literal → (∀ level id, tag ≠ .heading level id) →
      s ∈ inner.shownTexts false →
      InPieces ((r.startTag tag line).pieces opened (lined lineOf? inner)) s) :
    InPieces ((r.startTag tag line).pieces opened (lined lineOf? inner)) s ∨
      (∀ line', s <:+: ((r.startTag tag line).steps (lined lineOf? inner)).written
        (.stop tag.toEnd) line') ∨ s ∈ rest.shownTexts false := by
  by_cases hliteral : tag.content = .literal
  · obtain ⟨info, rfl⟩ := exists_info_of_literal hliteral hshown
    rcases List.mem_append.1 hs with hs | hs
    · exact .inr (.inl (infix_codeBlock lineOf? hinner hquiet hs))
    · exact .inr (.inr hs)
  by_cases hheading : ∃ level id, tag = .heading level id
  · obtain ⟨level, id, rfl⟩ := hheading
    rcases List.mem_append.1 hs with hs | hs
    · exact .inr (.inl (infix_heading lineOf? hinner hquiet hready hs))
    · exact .inr (.inr hs)
  have htag : ∀ level id, tag ≠ .heading level id := fun level id h => hheading ⟨level, id, h⟩
  have hs : s ∈ inner.shownTexts false ∨ s ∈ rest.shownTexts false := by
    cases tag with
    | heading level id => exact absurd rfl (htag level id)
    | _ => exact List.mem_append.1 hs
  rcases hs with hs | hs
  · exact .inl (hdeep hliteral htag hs)
  · exact .inr (.inr hs)

/-- Each text outside of headings and code blocks stands in what some event writes. -/
theorem inPieces_forest (lineOf? : Option (Nat → Nat)) (opened : List Text) (h : Shown c inside f)
    (hc : c ≠ .literal) (hready : Ready c inside r) (hquiet : Quiet r)
    (hclosed : r.headings.openHtml = none) {s : Text} (hs : s ∈ f.shownTexts false) :
    InPieces (r.pieces opened (lined lineOf? f)) s := by
  induction f generalizing c inside r opened with
  | nil => cases hs
  | leaf e offset rest ih =>
    obtain ⟨hadmits, hshown, hrest⟩ := h.leaf
    obtain ⟨hstart, hstop⟩ := ne_of_admits hadmits
    have hmoves := moves_step hstart hstop (h.onlyMarkers e List.mem_cons_self) r
      (lineOf?.map (· offset)) []
    have hready' := hready.of_moves hmoves
    obtain ⟨out, head, hwrites, -⟩ := hmoves
    have hclosed' : (r.step e (lineOf?.map (· offset))).headings.openHtml = none := by
      rw [hwrites.heading, hclosed]
      rfl
    have hbehind : s ∈ rest.shownTexts false →
        InPieces (r.pieces opened (lined lineOf? (.leaf e offset rest))) s := by
      intro hs
      have hin := ih (openNotes opened e) hrest hc hready' (hquiet.step hstart hstop hshown _)
        hclosed' hs
      exact hin.mono (List.subset_cons_self _ _)
    cases e with
    | text text =>
      rcases List.mem_cons.1 hs with rfl | hs
      · refine ⟨_, List.mem_cons_self, ?_⟩
        show _ <:+: r.written (.text text) _
        rw [written_text hquiet hclosed]
        exact List.infix_rfl
      · exact hbehind hs
    | start tag => exact absurd rfl (hstart tag)
    | _ => exact hbehind hs
  | element tag start stop inner rest ihInner ihRest =>
    obtain ⟨hholds, hnote, hshown, hinner, hrest⟩ := h.element
    have hready₁ := hready.startTag hholds (lineOf?.map (· start))
    have hfills := fills_of_shown lineOf? hinner hready₁
    have hready₃ := hready.after_element hholds hnote hfills
    have hquiet₃ := quiet_element lineOf? (lineOf?.map (· start)) hinner hshown hquiet
      (quiet_forest lineOf? hinner)
    obtain ⟨out, head, hwrites, -⟩ := moves_element hready hholds hnote hfills []
    have hclosed₃ := hwrites.heading
    rw [hclosed] at hclosed₃
    obtain ⟨opened₁, place, opened₂, hpieces⟩ :=
      pieces_element r opened lineOf? tag start stop inner rest
    rw [hpieces]
    rcases inPieces_element lineOf? opened₁ hinner hshown hready₁ hquiet hs
      (fun hliteral htag => ihInner opened₁ hinner hliteral hready₁
        (hquiet.startTag hshown hliteral _) (openHtml_startTag htag hclosed _)) with hin | hend | hs
    · refine hin.mono fun p hp => ?_
      exact List.mem_cons_of_mem _ (List.mem_append_left _ hp)
    · exact ⟨_, List.mem_cons_of_mem _ (List.mem_append_right _ List.mem_cons_self), hend _⟩
    · have hin := ihRest opened₂ hrest (after_ne_literal hc) hready₃ hquiet₃ hclosed₃ hs
      refine hin.mono fun p hp => ?_
      exact List.mem_cons_of_mem _ (List.mem_append_right _ (List.mem_cons_of_mem _ hp))

end forests

/-! ## Pages -/

theorem infix_items {notes : List Note} {note : Note} (hnote : note ∈ notes) {body : Text}
    (hbody : note.body = some body) (n : Nat) : body <:+: Footnotes.items n notes := by
  induction notes generalizing n with
  | nil => cases hnote
  | cons first notes ih =>
    rw [Footnotes.items]
    rcases List.mem_cons.1 hnote with rfl | hnote
    · have hitem : body <:+: Footnotes.Note.item n note := by
        unfold Footnotes.Note.item
        rw [hbody]
        exact List.IsInfix.trans ⟨_, _, rfl⟩ (List.prefix_append _ _).isInfix
      exact hitem.trans (List.prefix_append _ _).isInfix
    · exact (ih hnote (n + 1)).trans (List.suffix_append _ _).isInfix

theorem infix_items_sectionHtml {fs : Footnotes} {note : Note} (hnote : note ∈ fs.notes) {body : Text}
    (hbody : note.body = some body) : Footnotes.items 1 fs.notes <:+: fs.sectionHtml := by
  have hsome : ¬ fs.notes.all (·.body.isNone) = true := by
    rw [List.all_eq_true]
    intro hnone
    have hnote := hnone note hnote
    rw [hbody] at hnote
    cases hnote
  rw [Footnotes.sectionHtml, if_neg hsome]
  exact ⟨_, _, rfl⟩

theorem infix_sectionHtml {fs : Footnotes} {note : Note} (hnote : note ∈ fs.notes) {body : Text}
    (hbody : note.body = some body) : body <:+: fs.sectionHtml :=
  (infix_items hnote hbody 1).trans (infix_items_sectionHtml hnote hbody)

/-- What stands in a piece stands on the assembled page. -/
theorem infix_assembledPage {strict : List Text} {es : List (Event × Option Nat)} {s : Text}
    (h : InTurn strict es none) (hs : InPieces (({} : Renderer).pieces [] es) s) :
    s <:+: assembledPage es := by
  obtain ⟨p, hp, hs⟩ := hs
  refine hs.trans ((infix_writtenAt hp).trans ?_)
  cases hplace : p.place with
  | none => exact (List.prefix_append _ _).isInfix
  | some label =>
    have hstart := h.start_mem_of_mem_pieces hp hplace
    have hbody : (noteOf none (es.map (·.1)) (({} : Renderer).pieces [] es) label).body =
        some (writtenAt (some label) (({} : Renderer).pieces [] es)) :=
      if_pos ⟨hstart, by simp⟩
    refine List.IsInfix.trans ?_ (List.suffix_append _ _).isInfix
    exact infix_sectionHtml (List.mem_map_of_mem (Markdown.mem_noteLabels hstart rfl)) hbody

theorem html_renderLocated (options : Toc.Options) (lineOf? : Option (Nat → Nat)) {f : Forest}
    (hraw : ∀ e ∈ f.events, e.isRaw = false) :
    (({} : Renderer).renderLocated options lineOf? f.located).1.html =
      (({} : Renderer).steps (lined lineOf? f)).output ++
        (({} : Renderer).steps (lined lineOf? f)).footnotes.sectionHtml := by
  have hsame : List.Forall₂ (fun e e' => e.event.Alike e'.event) f.located f.located :=
    List.forall₂_same.2 fun e _ => .refl e.event
  have hlocated : ∀ e ∈ f.located, e.event.isRaw = false :=
    fun e he => hraw e.event (List.mem_map_of_mem he)
  obtain ⟨hmarkers, -⟩ := (Alike.fresh.steps lineOf? lineOf? hsame hlocated).markers
  show fillMarkers _ _ 0 (({} : Renderer).steps (lined lineOf? f)).markers _ = _
  rw [show (({} : Renderer).steps (lined lineOf? f)).markers = [] from hmarkers]
  rfl

/-- Footnote definitions that are put aside lose nothing, if none stands inside another: the page
shows what was written outside of them, each note shows what was written inside its definition, and
every text is there. -/
theorem renderLocated_assembles (options : Toc.Options) (lineOf? : Option (Nat → Nat)) {f : Forest}
    (hfits : f.fits .blocks = true) (hnotes : f.notesApart false = true)
    (hshown : ∀ e ∈ f.events, e.isShown = true)
    (hdistinct : (f.events.filterMap (·.definedLabel?)).Nodup) :
    (({} : Renderer).renderLocated options lineOf? f.located).1.html =
        assembledPage (lined lineOf? f) ∧
      ∀ s ∈ f.shownTexts false,
        s <:+: (({} : Renderer).renderLocated options lineOf? f.located).1.html := by
  have hturn : InTurn [] ([] ++ lined lineOf? f) none :=
    inTurn_lined lineOf? hfits hnotes f.notesEndInParagraph_nil .nil
  rw [List.nil_append] at hturn
  rw [← map_fst_lined lineOf? f] at hdistinct
  have hraw : ∀ e ∈ f.events, e.isRaw = false := fun e he => Event.isRaw_of_isShown (hshown e he)
  have hhtml := html_renderLocated options lineOf? hraw
  rw [hturn.output_append_sectionHtml hdistinct] at hhtml
  refine ⟨hhtml, fun s hs => ?_⟩
  have hready : Ready .blocks false ({} : Renderer) := ⟨fun _ => rfl, fun _ => rfl, fun _ => rfl⟩
  rw [hhtml]
  exact infix_assembledPage hturn (inPieces_forest lineOf? [] ⟨hfits, hnotes, hshown⟩ (by simp) hready
    ⟨rfl, rfl, rfl⟩ rfl hs)

/-- A note in a list, whose definition holds a code block, and a reference to it in a heading. -/
def noteInList : Forest :=
  .element (.heading 1 none) 0 9 (.leaf (.text " a < b ") 2 <| .leaf (.footnoteReference "n") 7 .nil) <|
  .element (.list none) 10 60
    (.element .item 10 60
      (.element .paragraph 12 14 (.leaf (.text "x") 12 .nil) <|
        .element (.footnoteDefinition "n") 16 58
          (.element (.codeBlock (some "c")) 20 58 (.leaf (.text "y & z") 25 .nil) .nil) .nil) .nil) .nil

theorem renderLocated_assembles_noteInList :
    noteInList.fits .blocks = true ∧ noteInList.notesApart false = true ∧
      (∀ e ∈ noteInList.events, e.isShown = true) ∧
      (noteInList.events.filterMap (·.definedLabel?)).Nodup ∧
      (({} : Renderer).renderLocated {} none noteInList.located).1.html =
        assembledPage (lined none noteInList) ∧
      ∀ s ∈ noteInList.shownTexts false,
        s <:+: (({} : Renderer).renderLocated {} none noteInList.located).1.html := by
  have hfits : noteInList.fits .blocks = true := by decide
  have hnotes : noteInList.notesApart false = true := by decide
  have hshown : ∀ e ∈ noteInList.events, e.isShown = true := by decide
  have hdistinct : (noteInList.events.filterMap (·.definedLabel?)).Nodup := by decide
  exact ⟨hfits, hnotes, hshown, hdistinct,
    renderLocated_assembles {} none hfits hnotes hshown hdistinct⟩

/-- A definition inside another one, behind a paragraph. -/
def nestedNotes : Forest :=
  .element .paragraph 0 6 (.leaf (.text "before") 0 .nil) <|
  .element (.footnoteDefinition "o") 8 40
    (.element (.footnoteDefinition "i") 14 30
      (.element .paragraph 20 30 (.leaf (.text "inner") 20 .nil) .nil) <|
      .element .paragraph 32 40 (.leaf (.text "outer") 32 .nil) .nil) .nil

theorem renderLocated_nestedNotes_ne :
    nestedNotes.fits .blocks = true ∧ (∀ e ∈ nestedNotes.events, e.isShown = true) ∧
      (nestedNotes.events.filterMap (·.definedLabel?)).Nodup ∧
      (({} : Renderer).renderLocated {} none nestedNotes.located).1.html ≠
        assembledPage (lined none nestedNotes) ∧
      "before".toList ∈ nestedNotes.shownTexts false ∧
      ¬ "before".toList <:+: (({} : Renderer).renderLocated {} none nestedNotes.located).1.html := by
  refine ⟨by decide, by decide, by decide, by decide +kernel, by decide, by decide +kernel⟩

end Galley.Render.Renderer
