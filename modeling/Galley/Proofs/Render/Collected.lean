import Galley.Proofs.Html.Replacement
import Galley.Proofs.Render.EventTags

/-!
# The texts that a run collects

A run writes to the page, or to the note that is being defined while the page stands aside, and it
collects the open heading and the notes. What lasts when texts are put together and holds of the
text of each event holds of all that was collected (`Holds.step`), and so of the unfinished page
(`Holds.unfinished`).
-/

namespace Galley.Render

open Html (OnlyTags)
open Markdown (Event)

namespace Renderer

/-- All texts that were collected are `P`. -/
structure Holds (P : Text → Prop) (r : Renderer) : Prop where
  output : P r.output
  heading : OpenHas P r
  saved : ∀ page, r.saved = some page → P page
  notes : ∀ note ∈ r.footnotes.notes, ∀ body, note.body = some body → P body

/-- The page at the end of a document, before the placeholders are replaced. -/
def unfinished (r : Renderer) : Text := r.output ++ r.footnotes.sectionHtml

namespace Holds

variable {P Q : Text → Prop} {r : Renderer}

theorem fresh (hP : Lasts P) : Holds P {} where
  output := hP.nil
  heading := fun _ hopened => by cases hopened
  saved := fun _ hsaved => by cases hsaved
  notes := fun _ hnote => absurd hnote List.not_mem_nil

theorem mono (h : Holds P r) (hPQ : ∀ u, P u → Q u) : Holds Q r where
  output := hPQ _ h.output
  heading := fun opened hopened => hPQ _ (h.heading opened hopened)
  saved := fun page hpage => hPQ _ (h.saved page hpage)
  notes := fun note hnote body hbody => hPQ _ (h.notes note hnote body hbody)

theorem write (hP : Lasts P) (h : Holds P r) {html : Text} (hhtml : P html) :
    Holds P (r.write html) :=
  { h with output := hP.append h.output hhtml }

theorem startFootnote (hP : Lasts P) (h : Holds P r) (label : Text) (line : Option Nat) :
    Holds P (r.startTag (.footnoteDefinition label) line) where
  output := hP.nil
  heading := h.heading
  saved := fun page hpage => by
    rw [← Option.some.inj hpage]
    exact h.output
  notes := Footnotes.forall_know h.notes fun _ hbody => by cases hbody

theorem endFootnote (hP : Lasts P) (h : Holds P r) : Holds P r.endFootnote := by
  have hnotes : ∀ {text : Text}, P text → ∀ note ∈ (r.footnotes.endDefinition text).notes,
      ∀ body, note.body = some body → P body := by
    intro text htext
    refine Footnotes.forall_endDefinition h.notes fun label _ => ⟨fun _ hbody => ?_, ?_⟩
    · cases hbody
    · intro note _ _ body hbody
      rwa [← Option.some.inj hbody]
  unfold Renderer.endFootnote
  split
  · split
    · next page hpage =>
      refine ⟨h.saved page hpage, h.heading, fun _ hnone => ?_, hnotes h.output⟩
      cases hnone
    · exact { h with notes := hnotes hP.nil }
  · exact h

theorem notes_step (h : Holds P r) {e : Event} (he : e.isNoteMark = false) (line : Option Nat) :
    ∀ note ∈ (r.step e line).footnotes.notes, ∀ body, note.body = some body → P body := by
  have hne : e ≠ .stop .footnoteDefinition := by
    rintro rfl
    cases he
  rw [footnotes_step r hne]
  unfold Footnotes.after
  split
  · exact Footnotes.forall_refer h.notes (fun _ hbody => by cases hbody) fun _ _ hnote => hnote
  · cases he
  · exact h.notes

/-- An event keeps what holds of its own text, unless it is raw HTML. -/
theorem step (hP : Lasts P) (h : Holds P r) {e : Event} (hraw : e.isRaw = false) (line : Option Nat)
    (hemitted : e.isHeadingMark = false → e.isNoteMark = false → P (r.emitted e line)) :
    Holds P (r.step e line) := by
  cases he : e.isNoteMark with
  | true =>
    unfold Event.isNoteMark at he
    split at he
    · exact h.startFootnote hP _ line
    · exact h.endFootnote hP
    · cases he
  | false =>
    obtain ⟨hwritten, hopen⟩ := hP.step h.heading hraw line hemitted
    refine ⟨?_, hopen, ?_, h.notes_step he line⟩
    · rw [output_step r line he]
      exact hP.append h.output hwritten
    · rw [saved_step r line he]
      exact h.saved

/-! ## The section of the notes -/

theorem item (hP : Lasts P) (htags : ∀ u, OnlyTags u → P u) (n : Nat) {note : Note}
    (h : ∀ body, note.body = some body → P body) : P (Footnotes.Note.item n note) := by
  unfold Footnotes.Note.item
  split
  · exact hP.nil
  · next body hbody =>
    have hstart : P ("<li id=\"fn-" ++ Text.ofNat n ++ "\">\n") :=
      htags _ (.singleton (Footnotes.tags?_itemStart n) trivial)
    have hback : P (if note.referenced then Footnotes.backReference n else []) := by
      split
      · exact htags _ ⟨_, Footnotes.tags?_backReference n, fun _ _ => trivial⟩
      · exact hP.nil
    have hstop : P "</li>\n" :=
      htags _ (.singleton (by decide : Html.tags? "</li>\n" = some [.stop "li"]) trivial)
    exact hP.append (hP.append (hP.append hstart (h body hbody)) hback) hstop

theorem items (hP : Lasts P) (htags : ∀ u, OnlyTags u → P u) (n : Nat) {notes : List Note}
    (h : ∀ note ∈ notes, ∀ body, note.body = some body → P body) : P (Footnotes.items n notes) := by
  induction notes generalizing n with
  | nil => exact hP.nil
  | cons note notes ih =>
    rw [List.forall_mem_cons] at h
    exact hP.append (item hP htags n h.1) (ih (n + 1) h.2)

theorem sectionHtml (hP : Lasts P) (htags : ∀ u, OnlyTags u → P u) (h : Holds P r) :
    P r.footnotes.sectionHtml := by
  unfold Footnotes.sectionHtml
  split
  · exact hP.nil
  · have hstart := htags _ ⟨_, Footnotes.tags?_sectionStart, fun _ _ => trivial⟩
    have hstop := htags _ ⟨_, Footnotes.tags?_sectionEnd, fun _ _ => trivial⟩
    exact hP.append (hP.append hstart (items hP htags 1 h.notes)) hstop

/-- What holds of texts of tags and of all that was collected holds of the unfinished page. -/
theorem unfinished (hP : Lasts P) (htags : ∀ u, OnlyTags u → P u) (h : Holds P r) :
    P r.unfinished :=
  hP.append h.output (h.sectionHtml hP htags)

end Holds

end Renderer

end Galley.Render
