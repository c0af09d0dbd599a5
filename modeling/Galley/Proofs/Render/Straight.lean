import Galley.Proofs.Render.ShownText

/-!
# Documents without notes

Without raw HTML and footnote definitions, everything that is written goes straight to the page, in
the order of the events, and no section of notes stands behind it.
-/

namespace Galley.Markdown.Forest

theorem notesApart_of_forall {f : Forest} (h : ∀ e ∈ f.events, e.isNoteMark = false)
    (inside : Bool) : f.notesApart inside = true := by
  induction f generalizing inside with
  | nil => rfl
  | leaf e offset rest ih =>
    exact ih (forall_mem_events_leaf_iff.1 h).2 inside
  | element tag start stop inner rest ihInner ihRest =>
    obtain ⟨hstart, hinner, -, hrest⟩ := forall_mem_events_element_iff.1 h
    have htag : tag.isNote = false := by cases tag <;> first | rfl | cases hstart
    simp [notesApart, htag, ihInner hinner, ihRest hrest]

end Galley.Markdown.Forest

namespace Galley.Render.Renderer

open Markdown (Content Event Forest Tag)

theorem output_steps (r : Renderer) (opened : List Text) {es : List (Event × Option Nat)}
    (h : ∀ e ∈ es, e.1.isNoteMark = false) :
    (r.steps es).output = r.output ++ (r.pieces opened es).flatMap (·.html) := by
  induction es generalizing r opened with
  | nil => exact (List.append_nil _).symm
  | cons e es ih =>
    rw [List.forall_mem_cons] at h
    have hrest := ih (r.step e.1 e.2) (Markdown.openNotes opened e.1) h.2
    rw [output_step r e.2 h.1, List.append_assoc] at hrest
    exact hrest

section documents

variable {c : Content} {r : Renderer} {f : Forest}

/-- The forest is well-nested content without raw HTML and footnote definitions. -/
structure Straight (c : Content) (f : Forest) : Prop where
  fits : f.fits c = true
  events : ∀ e ∈ f.events, e.isRaw = false ∧ e.isNoteMark = false

namespace Straight

variable {e : Event} {tag : Tag} {inner rest : Forest} {offset start stop : Nat}

theorem notesApart (h : Straight c f) (inside : Bool) : f.notesApart inside = true :=
  Forest.notesApart_of_forall (fun e he => (h.events e he).2) inside

theorem onlyMarkers (h : Straight c f) : ∀ e ∈ f.events, e.OnlyMarkers :=
  fun e he => Markdown.Event.onlyMarkers_of_isRaw (h.events e he).1

theorem leaf (h : Straight c (.leaf e offset rest)) : c.admits e = true ∧ Straight c rest := by
  obtain ⟨hadmits, hrest⟩ := Forest.fits_leaf_iff.1 h.fits
  exact ⟨hadmits, hrest, (Forest.forall_mem_events_leaf_iff.1 h.events).2⟩

theorem element (h : Straight c (.element tag start stop inner rest)) :
    c.holds tag = true ∧ tag.isNote = false ∧ Straight tag.content inner ∧ Straight c.after rest := by
  obtain ⟨hholds, hinner, hrest⟩ := Forest.fits_element_iff.1 h.fits
  obtain ⟨⟨-, hmark⟩, heventsInner, -, heventsRest⟩ := Forest.forall_mem_events_element_iff.1 h.events
  have htag : tag.isNote = false := by cases tag <;> first | rfl | cases hmark
  exact ⟨hholds, htag, ⟨hinner, heventsInner⟩, ⟨hrest, heventsRest⟩⟩

theorem fills (h : Straight c f) (lineOf? : Option (Nat → Nat)) {inside : Bool}
    (hready : Ready c inside r) : Fills c r (r.steps (lined lineOf? f)) :=
  fills_forest lineOf? h.fits (h.notesApart inside) h.onlyMarkers hready

end Straight

theorem steps_element (r : Renderer) (lineOf? : Option (Nat → Nat)) (tag : Tag) (start stop : Nat)
    (inner : Forest) : r.steps ((.start tag, lineOf?.map (· start)) ::
      (lined lineOf? inner ++ [(.stop tag.toEnd, lineOf?.map (· stop))])) =
        ((r.startTag tag (lineOf?.map (· start))).steps (lined lineOf? inner)).endTag tag.toEnd := by
  simp [steps, step]

theorem sectionHtml_eq_nil_of_not_isNoteMark (lineOf? : Option (Nat → Nat))
    (hfits : f.fits .blocks = true) (hmarks : ∀ e ∈ f.events, e.isNoteMark = false) :
    (({} : Renderer).steps (lined lineOf? f)).footnotes.sectionHtml = [] := by
  have hturn := inTurn_document lineOf? hfits (Forest.notesApart_of_forall hmarks false)
  have hdefined : ∀ label, .start (.footnoteDefinition label) ∉ (lined lineOf? f).map (·.1) := by
    intro label hmem
    rw [map_fst_lined] at hmem
    cases hmarks _ hmem
  have hdistinct : (((lined lineOf? f).map (·.1)).filterMap (·.definedLabel?)).Nodup := by
    have hnone : ((lined lineOf? f).map (·.1)).filterMap (·.definedLabel?) = [] := by
      rw [List.filterMap_eq_nil_iff]
      intro e he
      unfold Event.definedLabel?
      split
      · exact absurd he (hdefined _)
      · rfl
    rw [hnone]
    exact List.nodup_nil
  have hnotes := (hturn.captured hdistinct).notes
  rw [Footnotes.sectionHtml, hnotes, if_pos]
  rw [List.all_map, List.all_eq_true]
  intro label _
  simp [noteOf, hdefined]

theorem sectionHtml_eq_nil (lineOf? : Option (Nat → Nat)) (h : Straight .blocks f) :
    (({} : Renderer).steps (lined lineOf? f)).footnotes.sectionHtml = [] :=
  sectionHtml_eq_nil_of_not_isNoteMark lineOf? h.fits fun e he => (h.events e he).2

end documents

end Galley.Render.Renderer
