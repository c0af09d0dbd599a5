import Galley.Proofs.Render.HeadingId
import Galley.Proofs.Render.HeadingLink
import Galley.Proofs.Render.Settled

/-!
# What a document leaves to the next one

A renderer that goes on to another document holds the place in the last table, the counts of the ids
and the footnotes of the documents before it (`Leftover`). No cell is written before a table starts,
so the place does not matter. A count matters where a heading takes its id from its text, and the
footnotes matter where one is referred to or defined.
-/

namespace Galley.Markdown

def Tag.isTabular : Tag → Bool
  | .table _ | .tableHead | .tableRow | .tableCell => true
  | _ => false

def Content.isTabular : Content → Bool
  | .table | .rows | .cells => true
  | _ => false

theorem Content.isTabular_after {c : Content} (h : c.isTabular = false) :
    c.after.isTabular = false := by
  cases c with
  | table | rows | cells => cases h
  | _ => rfl

theorem Content.tag_of_not_isTabular {c : Content} {tag : Tag} (h : c.isTabular = false)
    (hholds : c.holds tag = true) : (∃ alignments, tag = .table alignments) ∨
      tag.isTabular = false ∧ tag.content.isTabular = false := by
  cases tag with
  | table alignments => exact .inl ⟨alignments, rfl⟩
  | tableHead | tableRow | tableCell =>
    cases c with
    | table | rows | cells => cases h
    | _ => cases hholds
  | _ => exact .inr ⟨rfl, rfl⟩

/-- Whether the event sets or reads the place in a table. -/
def Event.isTableMark : Event → Bool
  | .start tag => tag.isTabular
  | .stop .tableHead | .stop .tableCell => true
  | _ => false

/-- Whether the event refers to a footnote, or starts or ends its definition. -/
def Event.isOfNote : Event → Bool
  | .footnoteReference _ | .start (.footnoteDefinition _) | .stop .footnoteDefinition => true
  | _ => false

theorem Event.isTableMark_stop {tag : Tag} (h : tag.isTabular = false) :
    (Event.stop tag.toEnd).isTableMark = false := by
  cases tag with
  | table _ | tableHead | tableRow | tableCell => cases h
  | _ => rfl

end Galley.Markdown

namespace Galley.Render

open Markdown (Content Event Forest Tag TagEnd)

/-- What a renderer holds of the documents before. -/
structure Leftover where
  table : TableCursor := {}
  ids : IdCounts := []
  footnotes : Footnotes := {}

namespace Renderer

def holding (r : Renderer) (l : Leftover) : Renderer :=
  { r with table := l.table, headings := { r.headings with ids := l.ids }, footnotes := l.footnotes }

/-- The heading that an event ends. -/
def endedBy (r : Renderer) : Event → Option OpenHeading
  | .stop (.heading _) => r.headings.opened
  | _ => none

/-- The leftovers behind an event. -/
def leftAfter (r : Renderer) (l : Leftover) (e : Event) (line : Option Nat) : Leftover where
  table := if e.isTableMark then (r.step e line).table else l.table
  ids := (r.endedBy e).elim l.ids fun h => l.ids.use h.baseId
  footnotes := if e.isOfNote then (r.step e line).footnotes else l.footnotes

/-! ## Steps -/

section step

variable (r : Renderer) (l : Leftover)

theorem writeInline_holding (html : Text) :
    (r.holding l).writeInline html = (r.writeInline html).holding l := by
  unfold writeInline
  show (if r.headings.isOpen then _ else _) = _
  split <;> rfl

theorem text_holding (text : Text) : (r.holding l).text text = (r.text text).holding l := by
  have hinline := writeInline_holding (r.noteText text) l (Html.escape text)
  obtain ⟨output, code, _, image, headings, _, saved, quotes, inMetadata, markers⟩ := r
  cases inMetadata with
  | true => rfl
  | false =>
    cases code with
    | some _ => rfl
    | none =>
      cases image with
      | some _ => rfl
      | none => exact hinline

theorem rawHtml_holding (html : Text) :
    (r.holding l).rawHtml html = (r.rawHtml html).holding l := by
  unfold rawHtml
  split
  · exact writeInline_holding r l html
  · rfl

theorem endQuote_holding : (r.holding l).endQuote = r.endQuote.holding l := by
  obtain ⟨output, code, _, image, headings, _, saved, quotes, inMetadata, markers⟩ := r
  cases quotes with
  | nil => rfl
  | cons kind quotes => cases kind <;> rfl

theorem endImage_holding : (r.holding l).endImage = r.endImage.holding l := by
  cases himage : r.image with
  | none =>
    have himage' : (r.holding l).image = none := himage
    rw [endImage_of_none himage, endImage_of_none himage']
  | some image =>
    have himage' : (r.holding l).image = some image := himage
    rw [endImage_of_some himage, endImage_of_some himage', writeInline_holding]
    rfl

theorem endHeading_holding (hids : ∀ h, r.headings.opened = some h →
    Headings.idOf l.ids h = Headings.idOf r.headings.ids h) (level : Nat) (line : Option Nat) :
    (r.holding l).endHeading =
      r.endHeading.holding (r.leftAfter l (.stop (.heading level)) line) := by
  cases hopened : r.headings.opened with
  | none =>
    have hopened' : (r.holding l).headings.opened = none := hopened
    rw [endHeading_of_none hopened, endHeading_of_none hopened']
    simp [leftAfter, endedBy, hopened, Event.isTableMark, Event.isOfNote]
  | some h =>
    have hopened' : (r.holding l).headings.opened = some h := hopened
    rw [endHeading_of_some hopened, endHeading_of_some hopened']
    simp [leftAfter, endedBy, hopened, Event.isTableMark, Event.isOfNote, Headings.completed,
      Headings.entry, hids h hopened, holding, write]

theorem endFootnote_holding (hnotes : l.footnotes = r.footnotes) :
    (r.holding l).endFootnote = r.endFootnote.holding
      { l with footnotes := r.endFootnote.footnotes } := by
  obtain ⟨output, code, _, image, headings, footnotes, saved, quotes, inMetadata, markers⟩ := r
  obtain ⟨table, ids, left⟩ := l
  obtain rfl : left = footnotes := hnotes
  obtain ⟨notes, current⟩ := left
  cases current with
  | none => rfl
  | some label => cases saved <;> rfl

theorem footnoteReference_holding (hnotes : l.footnotes = r.footnotes) (label : Text) :
    (r.holding l).footnoteReference label = (r.footnoteReference label).holding
      { l with footnotes := (r.footnoteReference label).footnotes } := by
  have hwritten := footnotes_writeInline { r with footnotes := r.footnotes.refer label }
    (Footnotes.referenceHtml ((r.footnotes.refer label).number label))
  have hinline := writeInline_holding { r with footnotes := r.footnotes.refer label }
    { l with footnotes := r.footnotes.refer label }
    (Footnotes.referenceHtml ((r.footnotes.refer label).number label))
  obtain ⟨table, ids, _⟩ := l
  obtain rfl := hnotes
  unfold footnoteReference
  simp only [hwritten]
  exact hinline

/-- An event leads to the same state but for what is left, if it reads nothing of it that differs. -/
theorem step_holding {e : Event} (line : Option Nat)
    (htable : e.isTableMark = true → l.table = r.table)
    (hids : ∀ h, r.endedBy e = some h →
      Headings.idOf l.ids h = Headings.idOf r.headings.ids h)
    (hnotes : e.isOfNote = true → l.footnotes = r.footnotes) :
    (r.holding l).step e line = (r.step e line).holding (r.leftAfter l e line) := by
  cases e with
  | start tag =>
    cases tag with
    | table _ | tableHead | tableRow | tableCell =>
      obtain ⟨table, ids, footnotes⟩ := l
      obtain rfl := htable rfl
      rfl
    | footnoteDefinition label =>
      obtain ⟨table, ids, footnotes⟩ := l
      obtain rfl := hnotes rfl
      rfl
    | blockQuote kind => cases kind <;> rfl
    | emphasis | strong | strikethrough | superscript | subscript | link _ _ =>
      exact writeInline_holding r l _
    | _ => rfl
  | stop tag =>
    cases tag with
    | heading level => exact endHeading_holding r l hids level line
    | tableHead | tableCell =>
      obtain ⟨table, ids, footnotes⟩ := l
      obtain rfl := htable rfl
      rfl
    | footnoteDefinition => exact endFootnote_holding r l (hnotes rfl)
    | blockQuote _ => exact endQuote_holding r l
    | image => exact endImage_holding r l
    | emphasis | strong | strikethrough | superscript | subscript | link =>
      exact writeInline_holding r l _
    | _ => rfl
  | text text => exact text_holding r l text
  | html html | inlineHtml html => exact rawHtml_holding r l html
  | code _ | inlineMath _ | displayMath _ | softBreak =>
    exact writeInline_holding (r.noteText _) l _
  | footnoteReference label => exact footnoteReference_holding r l (hnotes rfl) label
  | hardBreak | rule | taskMarker _ => rfl

end step

/-- What a renderer holds of the documents before, itself. -/
def leftover (r : Renderer) : Leftover := ⟨r.table, r.headings.ids, r.footnotes⟩

theorem leftover_step (r : Renderer) (e : Event) (line : Option Nat) :
    (r.step e line).leftover = r.leftAfter r.leftover e line :=
  congrArg leftover (step_holding r r.leftover line (fun _ => rfl) (fun _ _ => rfl) fun _ => rfl)

/-! ## The place in a table -/

/-- The state with the next cell elsewhere. -/
def onTable (r : Renderer) (table : TableCursor) : Renderer := r.holding { r.leftover with table }

theorem step_onTable (r : Renderer) (table : TableCursor) {e : Event}
    (he : e.isTableMark = false) (line : Option Nat) :
    (r.onTable table).step e line = (r.step e line).onTable table := by
  have hstep := step_holding r { r.leftover with table } line
    (fun hmark => absurd hmark (Bool.eq_false_iff.1 he)) (fun _ _ => rfl) (fun _ => rfl)
  unfold onTable
  rw [hstep, leftover_step]
  simp [leftAfter, he]

/-- Rendering whole tables does not depend on where the last one ended. -/
theorem steps_onTable {c : Content} {f : Forest} (lineOf? : Option (Nat → Nat))
    (hfits : f.fits c = true) (hc : c.isTabular = false) (r : Renderer) (table : TableCursor) :
    ∃ table', (r.onTable table).steps (lined lineOf? f) =
      (r.steps (lined lineOf? f)).onTable table' := by
  induction f generalizing c r table with
  | nil => exact ⟨table, rfl⟩
  | leaf e offset rest ih =>
    obtain ⟨hadmits, hrest⟩ := Forest.fits_leaf_iff.1 hfits
    obtain ⟨hstart, hstop⟩ := ne_of_admits hadmits
    have he : e.isTableMark = false := by
      cases e with
      | start tag => exact absurd rfl (hstart tag)
      | stop tag => exact absurd rfl (hstop tag)
      | _ => rfl
    have hstep := step_onTable r table he (lineOf?.map (· offset))
    obtain ⟨table', hsteps⟩ := ih hrest hc (r.step e (lineOf?.map (· offset))) table
    rw [← hstep] at hsteps
    exact ⟨table', hsteps⟩
  | element tag start stop inner rest ihInner ihRest =>
    obtain ⟨hholds, hinner, hrest⟩ := Forest.fits_element_iff.1 hfits
    rw [steps_lined_element, steps_lined_element]
    rcases Content.tag_of_not_isTabular hc hholds with ⟨alignments, rfl⟩ | ⟨htag, hcontent⟩
    · -- the start of a table sets the place of its cells
      exact ⟨_, rfl⟩
    · have hstart := step_onTable r table (e := .start tag) htag (lineOf?.map (· start))
      obtain ⟨table₁, hsteps⟩ := ihInner hinner hcontent
        (r.startTag tag (lineOf?.map (· start))) table
      have hstop := step_onTable ((r.startTag tag (lineOf?.map (· start))).steps (lined lineOf? inner))
        table₁ (Event.isTableMark_stop htag) none
      rw [show (r.onTable table).startTag tag _ = _ from hstart]
      rw [show ((r.step (.start tag) _).onTable table).steps _ = _ from hsteps]
      rw [show Renderer.endTag _ tag.toEnd = _ from hstop]
      exact ihRest hrest (Content.isTabular_after hc) _ table₁

end Renderer

end Galley.Render
