import Galley.Proofs.Markdown.Forest
import Galley.Render.Renderer

/-!
# What a step reads of the page

A step never looks at the page: apart from the start and the end of a footnote definition, it
writes behind whatever stands there and leaves the page that was put aside as it is. So what an
event writes can be told from a run that starts with an empty page (`Renderer.written`). Of the
footnotes, only references and definitions change anything.
-/

namespace Galley.Markdown

def Event.isNoteMark : Event → Bool
  | .start (.footnoteDefinition _) | .stop .footnoteDefinition => true
  | _ => false

end Galley.Markdown

namespace Galley.Render

open Markdown (Event Tag TagEnd)

/-- The footnotes behind an event that ends no definition. -/
def Footnotes.after (fs : Footnotes) : Event → Footnotes
  | .footnoteReference label => fs.refer label
  | .start (.footnoteDefinition label) => fs.beginDefinition label
  | _ => fs

namespace Renderer

/-! ## Behind a page -/

def emptied (r : Renderer) : Renderer := { r with output := [], saved := none }

def behind (r : Renderer) (out : Text) (saved : Option Text) : Renderer :=
  { r with output := out ++ r.output, saved }

/-- What an event writes to the page. -/
def written (r : Renderer) (e : Event) (line : Option Nat) : Text := (r.emptied.step e line).output

theorem behind_emptied (r : Renderer) : r.emptied.behind r.output r.saved = r := by
  simp [behind, emptied]

theorem writeInline_behind (r : Renderer) (out : Text) (saved : Option Text) (html : Text) :
   (r.behind out saved).writeInline html = (r.writeInline html).behind out saved := by
  unfold writeInline
  show (if r.headings.isOpen then _ else _) = _
  split
  · rfl
  · simp [write, behind]

theorem write_behind (r : Renderer) (out : Text) (saved : Option Text) (html : Text) :
   (r.behind out saved).write html = (r.write html).behind out saved := by
  simp [write, behind]


theorem endHeading_behind (r : Renderer) (out : Text) (saved : Option Text) :
    (r.behind out saved).endHeading = r.endHeading.behind out saved := by
  obtain ⟨output, code, table, image, headings, footnotes, _, quotes, inMetadata, markers⟩ := r
  unfold endHeading behind
  cases headings.complete with
  | none => rfl
  | some completed => simp [write]

theorem endQuote_behind (r : Renderer) (out : Text) (saved : Option Text) :
    (r.behind out saved).endQuote = r.endQuote.behind out saved := by
  obtain ⟨output, code, table, image, headings, footnotes, _, quotes, inMetadata, markers⟩ := r
  unfold endQuote behind
  cases quotes with
  | nil => simp [write]
  | cons kind quotes => cases kind <;> simp [write]

theorem endImage_of_none {r : Renderer} (h : r.image = none) : r.endImage = r := by
  rw [endImage, h]

theorem endImage_of_some {r : Renderer} {image : OpenImage} (h : r.image = some image) :
    r.endImage =
      { r.writeInline (Html.image image.url image.alt image.title) with image := none } := by
  rw [endImage, h]

theorem endImage_behind (r : Renderer) (out : Text) (saved : Option Text) :
    (r.behind out saved).endImage = r.endImage.behind out saved := by
  cases himage : r.image with
  | none =>
    rw [endImage_of_none himage]
    exact endImage_of_none himage
  | some image =>
    have himage' : (r.behind out saved).image = some image := himage
    rw [endImage_of_some himage, endImage_of_some himage', writeInline_behind]
    rfl

theorem text_behind (r : Renderer) (out : Text) (saved : Option Text) (text : Text) :
    (r.behind out saved).text text = (r.text text).behind out saved := by
  obtain ⟨output, code, table, image, headings, footnotes, before, quotes, inMetadata, markers⟩ := r
  cases inMetadata with
  | true => rfl
  | false =>
    cases code with
    | some _ => rfl
    | none =>
      cases image with
      | some _ => rfl
      | none => exact writeInline_behind (noteText ⟨output, _, _, _, _, _, _, _, _, _⟩ text) out saved _

theorem rawHtml_behind (r : Renderer) (out : Text) (saved : Option Text) (html : Text) :
    (r.behind out saved).rawHtml html = (r.rawHtml html).behind out saved := by
  unfold rawHtml
  split
  · exact writeInline_behind r out saved html
  · simp [write, behind]

theorem startTag_behind (r : Renderer) (out : Text) (saved : Option Text) {tag : Tag}
    (htag : tag.isNote = false) (line : Option Nat) :
    (r.behind out saved).startTag tag line = (r.startTag tag line).behind out saved := by
  cases tag with
  | footnoteDefinition _ => cases htag
  | blockQuote kind =>
    have hquote (html : Text) := congrArg (fun r' : Renderer => { r' with quotes := kind :: r.quotes })
      (write_behind r out saved html)
    cases kind with
    | none => exact hquote _
    | some _ => exact hquote _
  | table alignments =>
    exact congrArg (fun r' : Renderer => { r' with table := { alignments } })
      (write_behind r out saved _)
  | tableHead =>
    exact congrArg
      (fun r' : Renderer => { r' with table := { r.table with inHead := true, column := 0 } })
      (write_behind r out saved _)
  | tableRow =>
    exact congrArg (fun r' : Renderer => { r' with table := { r.table with column := 0 } })
      (write_behind r out saved _)
  | emphasis | strong | strikethrough | superscript | subscript | link _ _ =>
    exact writeInline_behind r out saved _
  | heading _ _ | codeBlock _ | metadata | htmlBlock | image _ _ => rfl
  | _ => exact write_behind r out saved _

theorem endTag_behind (r : Renderer) (out : Text) (saved : Option Text) {tag : TagEnd}
    (htag : tag ≠ .footnoteDefinition) :
    (r.behind out saved).endTag tag = (r.endTag tag).behind out saved := by
  cases tag with
  | footnoteDefinition => exact absurd rfl htag
  | heading _ => exact endHeading_behind r out saved
  | blockQuote _ => exact endQuote_behind r out saved
  | codeBlock =>
    exact congrArg (fun r' : Renderer => { r' with code := none }) (write_behind r out saved _)
  | tableHead =>
    exact congrArg (fun r' : Renderer => { r' with table := { r.table with inHead := false } })
      (write_behind r out saved _)
  | tableCell =>
    exact congrArg
      (fun r' : Renderer => { r' with table := { r.table with column := r.table.column + 1 } })
      (write_behind r out saved _)
  | emphasis | strong | strikethrough | superscript | subscript | link =>
    exact writeInline_behind r out saved _
  | image => exact endImage_behind r out saved
  | metadata | htmlBlock => rfl
  | _ => exact write_behind r out saved _

theorem step_behind (r : Renderer) (out : Text) (saved : Option Text) {e : Event}
    (he : e.isNoteMark = false) (line : Option Nat) :
    (r.behind out saved).step e line = (r.step e line).behind out saved := by
  cases e with
  | start tag => exact startTag_behind r out saved (by cases tag <;> first | rfl | cases he) line
  | stop tag => exact endTag_behind r out saved (by rintro rfl; cases he)
  | text text => exact text_behind r out saved text
  | html html | inlineHtml html => exact rawHtml_behind r out saved html
  | code _ | inlineMath _ | displayMath _ | softBreak =>
    exact writeInline_behind (r.noteText _) out saved _
  | footnoteReference label =>
    exact writeInline_behind { r with footnotes := r.footnotes.refer label } out saved _
  | hardBreak | rule | taskMarker _ => exact write_behind r out saved _

section step

variable (r : Renderer) {e : Event} (line : Option Nat)

theorem step_eq_behind (he : e.isNoteMark = false) :
    r.step e line = (r.emptied.step e line).behind r.output r.saved := by
  rw [← step_behind _ _ _ he, behind_emptied]

theorem output_step (he : e.isNoteMark = false) :
    (r.step e line).output = r.output ++ r.written e line := by
  rw [step_eq_behind r line he]
  rfl

theorem saved_step (he : e.isNoteMark = false) : (r.step e line).saved = r.saved := by
  rw [step_eq_behind r line he]
  rfl

end step

/-! ## Footnotes -/

theorem footnotes_writeInline (r : Renderer) (html : Text) :
    (r.writeInline html).footnotes = r.footnotes := by
  unfold writeInline
  split <;> rfl

theorem footnotes_startTag (r : Renderer) (tag : Tag) (line : Option Nat) :
    (r.startTag tag line).footnotes = r.footnotes.after (.start tag) := by
  cases tag with
  | blockQuote kind => cases kind <;> rfl
  | emphasis | strong | strikethrough | superscript | subscript | link _ _ =>
    exact footnotes_writeInline r _
  | _ => rfl

theorem footnotes_endTag (r : Renderer) {tag : TagEnd} (htag : tag ≠ .footnoteDefinition) :
    (r.endTag tag).footnotes = r.footnotes := by
  cases tag with
  | footnoteDefinition => exact absurd rfl htag
  | heading _ =>
    show r.endHeading.footnotes = _
    unfold endHeading
    split <;> rfl
  | blockQuote _ =>
    show r.endQuote.footnotes = _
    unfold endQuote
    split <;> rfl
  | image =>
    show r.endImage.footnotes = _
    unfold endImage
    split
    · rfl
    · exact footnotes_writeInline r _
  | emphasis | strong | strikethrough | superscript | subscript | link =>
    exact footnotes_writeInline r _
  | _ => rfl

/-- Only references and definitions change the footnotes. -/
theorem footnotes_step (r : Renderer) {e : Event} (he : e ≠ .stop .footnoteDefinition)
    (line : Option Nat) : (r.step e line).footnotes = r.footnotes.after e := by
  cases e with
  | start tag => exact footnotes_startTag r tag line
  | stop tag => exact footnotes_endTag r (by rintro rfl; exact he rfl)
  | text text =>
    show (r.text text).footnotes = _
    unfold Renderer.text
    split
    · rfl
    · split
      · rfl
      · rfl
      · exact footnotes_writeInline _ _
  | html html | inlineHtml html =>
    show (r.rawHtml html).footnotes = _
    unfold rawHtml
    split
    · exact footnotes_writeInline r html
    · rfl
  | code _ | inlineMath _ | displayMath _ | softBreak | footnoteReference _ =>
    exact footnotes_writeInline _ _
  | hardBreak | rule | taskMarker _ => rfl

end Renderer

end Galley.Render
