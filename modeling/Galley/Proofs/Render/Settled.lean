import Galley.Proofs.Render.Emission

/-!
# What a document leaves open

An element that was started is ended again. So behind a well-nested document no heading, quote, code
block, image or footnote definition is open (`Renderer.Settles.forest`).
-/

namespace Galley.Render

open Markdown (Content Event Forest Tag TagEnd)

namespace Renderer

/-- A page is put aside exactly while a footnote is being defined. -/
def Paired (r : Renderer) : Prop := r.footnotes.current.isSome = r.saved.isSome

/-- What was settled in `r` is settled in `r'`: nothing that was begun in between is open. -/
structure Settles (r r' : Renderer) : Prop where
  code : r.code = none → r'.code = none
  image : r.image = none → r'.image = none
  heading : r.headings.opened = none → r'.headings.opened = none
  metadata : r.inMetadata = false → r'.inMetadata = false
  paired : r.Paired → r'.Paired
  saved : r.Paired → r.saved = none → r'.saved = none
  quotes : r'.quotes = r.quotes

namespace Settles

variable {r r₁ r₂ : Renderer}

theorem refl (r : Renderer) : Settles r r := ⟨id, id, id, id, id, fun _ => id, rfl⟩

theorem trans (h : Settles r r₁) (h₁ : Settles r₁ r₂) : Settles r r₂ where
  code := fun hr => h₁.code (h.code hr)
  image := fun hr => h₁.image (h.image hr)
  heading := fun hr => h₁.heading (h.heading hr)
  metadata := fun hr => h₁.metadata (h.metadata hr)
  paired := fun hr => h₁.paired (h.paired hr)
  saved := fun hr hsaved => h₁.saved (h.paired hr) (h.saved hr hsaved)
  quotes := h₁.quotes.trans h.quotes

theorem write (r : Renderer) (html : Text) : Settles r (r.write html) :=
  ⟨id, id, id, id, id, fun _ => id, rfl⟩

theorem noteText (r : Renderer) (text : Text) : Settles r (r.noteText text) := by
  refine ⟨id, id, fun hr => ?_, id, id, fun _ => id, rfl⟩
  simp [Renderer.noteText, Headings.pushText, hr]

theorem writeInline (r : Renderer) (html : Text) : Settles r (r.writeInline html) := by
  unfold Renderer.writeInline
  split
  · refine ⟨id, id, fun hr => ?_, id, id, fun _ => id, rfl⟩
    simp [Headings.pushHtml, hr]
  · exact write r html

theorem noteInline (r : Renderer) (text html : Text) :
    Settles r ((r.noteText text).writeInline html) :=
  (noteText r text).trans (writeInline _ html)

theorem text (r : Renderer) (text : Text) : Settles r (r.text text) := by
  unfold Renderer.text
  split
  · exact refl r
  · split
    · next hcode => exact ⟨fun hr => by simp [hcode] at hr, id, id, id, id, fun _ => id, rfl⟩
    · next himage => exact ⟨id, fun hr => by simp [himage] at hr, id, id, id, fun _ => id, rfl⟩
    · exact noteInline r text _

theorem rawHtml (r : Renderer) (html : Text) : Settles r (r.rawHtml html) := by
  unfold Renderer.rawHtml
  split
  · exact writeInline r html
  · exact ⟨id, id, id, id, id, fun _ => id, rfl⟩

theorem footnoteReference (r : Renderer) (label : Text) :
    Settles r (r.footnoteReference label) := by
  have hcurrent : (r.footnotes.refer label).current = r.footnotes.current :=
    Footnotes.current_know r.footnotes label
  have hrefer : Settles r { r with footnotes := r.footnotes.refer label } := by
    refine ⟨id, id, id, id, fun hr => ?_, fun _ => id, rfl⟩
    exact (congrArg Option.isSome hcurrent).trans hr
  exact hrefer.trans (writeInline _ _)

theorem step {e : Event} (hstart : ∀ tag, e ≠ .start tag) (hstop : ∀ tag, e ≠ .stop tag)
    (r : Renderer) (line : Option Nat) : Settles r (r.step e line) := by
  cases e with
  | start tag => exact absurd rfl (hstart tag)
  | stop tag => exact absurd rfl (hstop tag)
  | text text => exact Settles.text r text
  | html html | inlineHtml html => exact rawHtml r html
  | code _ | inlineMath _ | displayMath _ | softBreak => exact noteInline r _ _
  | footnoteReference label => exact footnoteReference r label
  | hardBreak | rule | taskMarker _ => exact write r _

/-! ## Elements -/

theorem endHeading (r : Renderer) :
    Settles r r.endHeading ∧ r.endHeading.headings.opened = none := by
  cases hopened : r.headings.opened with
  | none =>
    rw [endHeading_of_none hopened]
    exact ⟨refl r, hopened⟩
  | some opened =>
    rw [endHeading_of_some hopened]
    exact ⟨⟨id, id, fun _ => rfl, id, id, fun _ => id, rfl⟩, rfl⟩

theorem endImage (r : Renderer) : Settles r r.endImage ∧ r.endImage.image = none := by
  cases himage : r.image with
  | none =>
    rw [endImage_of_none himage]
    exact ⟨refl r, himage⟩
  | some image =>
    have hwrite := writeInline r (Html.image image.url image.alt image.title)
    rw [endImage_of_some himage]
    exact ⟨⟨hwrite.code, fun _ => rfl, hwrite.heading, hwrite.metadata, hwrite.paired, hwrite.saved,
      hwrite.quotes⟩, rfl⟩

theorem endFootnote (r : Renderer) : Settles r r.endFootnote ∧
    (r.Paired → r.endFootnote.Paired ∧ r.endFootnote.saved = none) := by
  have hends (text : Text) := Footnotes.current_endDefinition r.footnotes text
  unfold Renderer.endFootnote
  split
  · next hcurrent =>
    split
    · have hpaired (output : Text) : Paired { r with
          output, saved := none, footnotes := r.footnotes.endDefinition r.output } := by
        simp [Paired, hends]
      exact ⟨⟨id, id, id, id, fun _ => hpaired _, fun _ _ => rfl, rfl⟩, fun _ => ⟨hpaired _, rfl⟩⟩
    · next hsaved =>
      have hnot : ¬ r.Paired := by simp [Paired, hcurrent, hsaved]
      exact ⟨⟨id, id, id, id, fun hr => absurd hr hnot, fun hr => absurd hr hnot, rfl⟩,
        fun hr => absurd hr hnot⟩
  · next hcurrent =>
    refine ⟨refl r, fun hr => ⟨hr, ?_⟩⟩
    have hsaved : r.saved.isSome = false := by
      rw [← show r.footnotes.current.isSome = r.saved.isSome from hr]
      exact Bool.eq_false_iff.2 hcurrent
    simpa using hsaved

theorem element {tag : Tag} {line : Option Nat} (h : Settles (r.startTag tag line) r₁) :
    Settles r (r₁.endTag tag.toEnd) := by
  cases tag with
  | heading level id =>
    obtain ⟨hend, hnone⟩ := endHeading r₁
    have hboth := h.trans hend
    exact { hboth with heading := fun _ => hnone }
  | blockQuote kind =>
    obtain ⟨html, hend⟩ : ∃ html, r₁.endQuote = { r₁.write html with quotes := r.quotes } := by
      unfold endQuote
      cases kind with
      | none => exact ⟨Html.blockQuoteEnd, by rw [h.quotes]; rfl⟩
      | some kind => exact ⟨Html.alertEnd, by rw [h.quotes]; rfl⟩
    show Settles r r₁.endQuote
    rw [hend]
    cases kind with
    | none => exact ⟨h.code, h.image, h.heading, h.metadata, h.paired, h.saved, rfl⟩
    | some _ => exact ⟨h.code, h.image, h.heading, h.metadata, h.paired, h.saved, rfl⟩
  | codeBlock info =>
    exact ⟨fun _ => rfl, h.image, h.heading, h.metadata, h.paired, h.saved, h.quotes⟩
  | footnoteDefinition label =>
    obtain ⟨hend, hnone⟩ := endFootnote r₁
    have hboth := h.trans hend
    have hpaired : (r.startTag (.footnoteDefinition label) line).Paired := rfl
    exact { hboth with
      paired := fun _ => hboth.paired hpaired
      saved := fun _ _ => (hnone (h.paired hpaired)).2 }
  | metadata =>
    exact ⟨h.code, h.image, h.heading, fun _ => rfl, h.paired, h.saved, h.quotes⟩
  | image url title =>
    obtain ⟨hend, hnone⟩ := endImage r₁
    have hboth := h.trans hend
    exact { hboth with image := fun _ => hnone }
  | emphasis | strong | strikethrough | superscript | subscript | link _ _ =>
    exact ((writeInline r _).trans h).trans (writeInline r₁ _)
  | _ => exact ⟨h.code, h.image, h.heading, h.metadata, h.paired, h.saved, h.quotes⟩

theorem forest {c : Content} {f : Forest} (lineOf? : Option (Nat → Nat)) (hfits : f.fits c = true)
    (r : Renderer) : Settles r (r.steps (lined lineOf? f)) := by
  induction f generalizing c r with
  | nil => exact refl r
  | leaf e offset rest ih =>
    obtain ⟨hadmits, hrest⟩ := Forest.fits_leaf_iff.1 hfits
    obtain ⟨hstart, hstop⟩ := ne_of_admits hadmits
    exact (step hstart hstop r _).trans (ih hrest _)
  | element tag start stop inner rest ihInner ihRest =>
    obtain ⟨-, hinner, hrest⟩ := Forest.fits_element_iff.1 hfits
    rw [steps_lined_element]
    exact (element (ihInner hinner _)).trans (ihRest hrest _)

end Settles

end Renderer

end Galley.Render
