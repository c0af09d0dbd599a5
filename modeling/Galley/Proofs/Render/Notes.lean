import Galley.Markdown.Event
import Galley.Render.Footnotes
import Galley.Proofs.Text

/-!
# The notes of a page

The notes are listed once for each label, in the order in which the labels first appear, in a
reference or at the start of a definition. So the notes are the list of the labels with a note made
for each; referring to a label, and beginning and ending its definition, change what is made for
this label only.
-/

namespace Galley.Markdown

/-- The label of the footnote that the event refers to or begins to define. -/
def Event.noteLabel? : Event → Option Text
  | .footnoteReference label | .start (.footnoteDefinition label) => some label
  | _ => none

def Event.definedLabel? : Event → Option Text
  | .start (.footnoteDefinition label) => some label
  | _ => none

/-- The labels of the footnotes, in the order in which they appear. -/
def noteLabels (events : List Event) : List Text := (events.filterMap (·.noteLabel?)).eraseDups

theorem mem_noteLabels {events : List Event} {e : Event} {label : Text} (he : e ∈ events)
    (hlabel : e.noteLabel? = some label) : label ∈ noteLabels events :=
  List.mem_eraseDups.2 (List.mem_filterMap.2 ⟨e, he, hlabel⟩)

theorem noteLabels_append_of_none (events : List Event) {e : Event} (he : e.noteLabel? = none) :
    noteLabels (events ++ [e]) = noteLabels events := by
  simp [noteLabels, he]

theorem noteLabels_append_of_some (events : List Event) {e : Event} {label : Text}
    (he : e.noteLabel? = some label) : noteLabels (events ++ [e]) =
      if label ∈ noteLabels events then noteLabels events else noteLabels events ++ [label] := by
  have hlabels : (events ++ [e]).filterMap (·.noteLabel?) =
      events.filterMap (·.noteLabel?) ++ [label] := by simp [he]
  simp only [noteLabels, hlabels, Text.eraseDups_concat, List.mem_eraseDups]

theorem nodup_noteLabels (events : List Event) : (noteLabels events).Nodup :=
  Text.nodup_eraseDups _

end Galley.Markdown

namespace Galley.Render.Footnotes

variable {labels : List Text} {note note' : Text → Note} {label : Text}

/-- Changing the note of a label changes what is made for this label. -/
theorem modify_map {f : Note → Note} (hnodup : labels.Nodup) (hlabel : ∀ l, (note l).label = l)
    (hf : f (note label) = note' label) (hrest : ∀ l, l ≠ label → note' l = note l) :
    modify label f (labels.map note) = labels.map note' := by
  induction labels with
  | nil => rfl
  | cons l labels ih =>
    obtain ⟨hl, hnodup⟩ := List.nodup_cons.1 hnodup
    rw [List.map_cons, List.map_cons, modify, hlabel]
    split
    · next heq =>
      subst heq
      have htail : labels.map note' = labels.map note :=
        List.map_congr_left fun m hm => hrest m fun h => hl (h ▸ hm)
      rw [hf, htail]
    · next hne => rw [hrest l hne, ih hnodup]

theorem any_map (hlabel : ∀ l, (note l).label = l) :
    (labels.map note).any (·.label = label) = decide (label ∈ labels) := by
  simp [hlabel, List.any_eq]

theorem any_know (fs : Footnotes) (label : Text) :
    (fs.know label).notes.any (·.label = label) = true := by
  unfold know
  split
  · assumption
  · simp

theorem notes_know {fs : Footnotes} (hlabel : ∀ l, (note l).label = l)
    (hnew : label ∉ labels → note label = { label }) (h : fs.notes = labels.map note) :
    (fs.know label).notes =
      (if label ∈ labels then labels else labels ++ [label]).map note := by
  unfold know
  rw [h, any_map hlabel]
  by_cases hmem : label ∈ labels
  · simp [hmem, h]
  · simp [hmem, hnew hmem]

theorem notes_endDefinition {fs : Footnotes} (h : fs.current = some label) (body : Text) :
    (fs.endDefinition body).notes =
      modify label ({ · with body := some body }) (fs.know label).notes := by
  unfold endDefinition
  rw [h]

end Galley.Render.Footnotes
