import Galley.Render.NoteTables
import Galley.Proofs.Render.NoteLink

/-!
# What calls tell of notes

Behind some calls the notes are the labels in the order in which the calls name them first, with a note
made for each: whether a call refers to the label, and the text of the last definition of the label that
ended (`Footnotes.notes_run`). The notes of a page are those of calls (`exists_noteCalls`), so the
number that a reference is given is that of its label on the whole page (`number_refer_steps`).
-/

namespace Galley.Render

namespace NoteCall

/-! ## What the calls tell -/

def label? : NoteCall → Option Text
  | .refer label | .beginDefinition label => some label
  | .endDefinition _ => none

/-- The labels that the calls name, in the order in which they are named first. -/
def labels (calls : List NoteCall) : List Text := (calls.filterMap label?).eraseDups

/-- The label of the definition being read after the call, if it is `current?` before. -/
def openAfter (current? : Option Text) : NoteCall → Option Text
  | .refer _ => current?
  | .beginDefinition label => some label
  | .endDefinition _ => none

/-- The definition that the call ends, as its label and its text, if `current?` is being read. -/
def ended? (current? : Option Text) : NoteCall → Option (Text × Text)
  | .endDefinition body => current?.map (·, body)
  | _ => none

/-- The definitions that the calls end, if `current?` is being read before. -/
def ended (current? : Option Text) : List NoteCall → List (Text × Text)
  | [] => []
  | call :: calls => (call.ended? current?).toList ++ ended (call.openAfter current?) calls

/-- The text of the last one of the definitions of the label that the calls end. -/
def body? (calls : List NoteCall) (label : Text) : Option Text :=
  (ended none calls).reverse.lookup label

def note (calls : List NoteCall) (label : Text) : Note where
  label := label
  referenced := decide (.refer label ∈ calls)
  body := body? calls label

variable {calls : List NoteCall} {label label' body : Text}

theorem nodup_labels (calls : List NoteCall) : (labels calls).Nodup := Text.nodup_eraseDups _

theorem labels_concat_of_none {call : NoteCall} (h : call.label? = none) :
    labels (calls ++ [call]) = labels calls := by
  simp [labels, h]

theorem labels_concat_of_some {call : NoteCall} (h : call.label? = some label) :
    labels (calls ++ [call]) =
      if label ∈ labels calls then labels calls else labels calls ++ [label] := by
  have hcalls : (calls ++ [call]).filterMap label? = calls.filterMap label? ++ [label] := by simp [h]
  simp only [labels, hcalls, Text.eraseDups_concat, List.mem_eraseDups]

theorem ended_concat (current? : Option Text) (calls : List NoteCall) (call : NoteCall) :
    ended current? (calls ++ [call]) =
      ended current? calls ++ (call.ended? (calls.foldl openAfter current?)).toList := by
  induction calls generalizing current? with
  | nil => simp [ended]
  | cons first calls ih => simp [ended, ih]

theorem mem_labels {call : NoteCall} (hcall : call ∈ calls) (hlabel : call.label? = some label) :
    label ∈ labels calls :=
  List.mem_eraseDups.2 (List.mem_filterMap.2 ⟨call, hcall, hlabel⟩)

theorem labels_prefix_append (calls later : List NoteCall) :
    labels calls <+: labels (calls ++ later) := by
  rw [labels, labels, List.filterMap_append, List.eraseDups_append]
  exact List.prefix_append _ _

theorem begun_of_open (h : calls.foldl openAfter none = some label) : .beginDefinition label ∈ calls := by
  induction calls using List.reverseRecOn with
  | nil => cases h
  | append_singleton calls call ih =>
    rw [List.foldl_append] at h
    cases call with
    | refer other => exact List.mem_append_left _ (ih h)
    | beginDefinition other =>
      obtain rfl := Option.some.inj h
      exact List.mem_concat_self
    | endDefinition body => cases h

theorem begun_of_ended {call : NoteCall}
    (h : call.ended? (calls.foldl openAfter none) = some (label, body)) :
    .beginDefinition label ∈ calls := by
  cases call with
  | refer other => cases h
  | beginDefinition other => cases h
  | endDefinition text =>
    obtain ⟨other, hopen, heq⟩ := Option.map_eq_some_iff.1 h
    cases heq
    exact begun_of_open hopen

/-! ## What one more call changes -/

theorem body?_concat_of_none {call : NoteCall} (h : call.ended? (calls.foldl openAfter none) = none) :
    body? (calls ++ [call]) label = body? calls label := by
  rw [body?, ended_concat, h, Option.toList_none, List.append_nil]
  rfl

theorem body?_concat_of_some {call : NoteCall}
    (h : call.ended? (calls.foldl openAfter none) = some (label', body)) :
    body? (calls ++ [call]) label = if label = label' then some body else body? calls label := by
  rw [body?, ended_concat, h, Option.toList_some, List.reverse_append, List.reverse_singleton,
    List.singleton_append, List.lookup_cons]
  by_cases heq : label = label'
  · rw [heq, beq_self_eq_true, if_pos rfl]
  · rw [beq_eq_false_iff_ne.2 heq, if_neg heq]
    rfl

theorem note_concat_of_ne {call : NoteCall} (hrefer : call ≠ .refer label)
    (hended : ∀ body, call.ended? (calls.foldl openAfter none) ≠ some (label, body)) :
    note (calls ++ [call]) label = note calls label := by
  have hbody : body? (calls ++ [call]) label = body? calls label := by
    cases hcall : call.ended? (calls.foldl openAfter none) with
    | none => exact body?_concat_of_none hcall
    | some definition =>
      have hne : label ≠ definition.1 := by
        rintro rfl
        exact hended definition.2 hcall
      rw [body?_concat_of_some hcall, if_neg hne]
  simp [note, hbody, hrefer.symm]

theorem note_concat_refer :
    note (calls ++ [.refer label]) label = { note calls label with referenced := true } := by
  have hbody : body? (calls ++ [.refer label]) label = body? calls label := body?_concat_of_none rfl
  simp [note, hbody]

theorem note_concat_endDefinition (h : calls.foldl openAfter none = some label) :
    note (calls ++ [.endDefinition body]) label = { note calls label with body := some body } := by
  have hended : (NoteCall.endDefinition body).ended? (calls.foldl openAfter none) =
      some (label, body) := by rw [h]; rfl
  simp [note, body?_concat_of_some hended]

theorem body?_of_not_begun (h : .beginDefinition label ∉ calls) : body? calls label = none := by
  induction calls using List.reverseRecOn with
  | nil => rfl
  | append_singleton calls call ih =>
    have hbefore : .beginDefinition label ∉ calls := fun hmem => h (List.mem_append_left _ hmem)
    cases hended : call.ended? (calls.foldl openAfter none) with
    | none => rw [body?_concat_of_none hended, ih hbefore]
    | some definition =>
      have hne : label ≠ definition.1 := by
        rintro rfl
        exact hbefore (begun_of_ended hended)
      rw [body?_concat_of_some hended, if_neg hne, ih hbefore]

theorem note_of_not_mem (h : label ∉ labels calls) : note calls label = { label } := by
  have hrefer : NoteCall.refer label ∉ calls := fun hmem => h (mem_labels hmem rfl)
  have hbegun : NoteCall.beginDefinition label ∉ calls := fun hmem => h (mem_labels hmem rfl)
  simp [note, hrefer, body?_of_not_begun hbegun]

end NoteCall

open Markdown (Event noteLabels noteNumber noteNumber_append)
open NoteCall (labels note body? openAfter)

variable {fs : Footnotes} {label : Text}

namespace Footnotes

/-! ## The list of the notes -/

theorem current_call (fs : Footnotes) (call : NoteCall) :
    (fs.call call).current = call.openAfter fs.current := by
  cases call with
  | refer label => exact current_know fs label
  | beginDefinition label => rfl
  | endDefinition body => exact current_endDefinition fs body

theorem current_run (calls : List NoteCall) : (run calls).current = calls.foldl openAfter none :=
  (List.foldl_hom Footnotes.current fun fs call => (current_call fs call).symm).symm

theorem endDefinition_of_none {body : Text} (h : fs.current = none) : fs.endDefinition body = fs := by
  unfold endDefinition
  rw [h]

theorem notes_know_of_notes {calls : List NoteCall} (call : NoteCall)
    (h : fs.notes = (labels calls).map (note calls)) (hlabel : call.label? = some label) :
    (fs.know label).notes = (labels (calls ++ [call])).map (note calls) := by
  rw [notes_know (fun _ => rfl) NoteCall.note_of_not_mem h, NoteCall.labels_concat_of_some hlabel]

theorem notes_endDefinition_of_notes {calls : List NoteCall} (body : Text)
    (h : fs.notes = (labels calls).map (note calls))
    (hcurrent : fs.current = calls.foldl openAfter none) :
    (fs.endDefinition body).notes = (labels calls).map (note (calls ++ [.endDefinition body])) := by
  cases hopen : fs.current with
  | none =>
    rw [endDefinition_of_none hopen, h]
    refine List.map_congr_left fun other _ => Eq.symm ?_
    refine NoteCall.note_concat_of_ne nofun fun text hended => ?_
    rw [← hcurrent, hopen] at hended
    cases hended
  | some label =>
    have hlabel : label ∈ labels calls := NoteCall.mem_labels (NoteCall.begun_of_open (hcurrent ▸ hopen)) rfl
    have hknown := notes_know (fun _ => rfl) (fun hnew => absurd hlabel hnew) h
    rw [if_pos hlabel] at hknown
    rw [notes_endDefinition hopen, hknown]
    refine modify_map (NoteCall.nodup_labels _) (fun _ => rfl) ?_ fun other hother => ?_
    · exact (NoteCall.note_concat_endDefinition (hcurrent ▸ hopen)).symm
    · refine NoteCall.note_concat_of_ne nofun fun text hended => ?_
      rw [← hcurrent, hopen] at hended
      cases hended
      exact hother rfl

/-- What is known after the calls: a note for each label. -/
theorem notes_run (calls : List NoteCall) :
    (run calls).notes = (labels calls).map (note calls) := by
  induction calls using List.reverseRecOn with
  | nil => rfl
  | append_singleton calls call ih =>
    have hrun : run (calls ++ [call]) = (run calls).call call := List.foldl_append
    rw [hrun]
    cases call with
    | refer label =>
      show modify label _ ((run calls).know label).notes = _
      rw [notes_know_of_notes (.refer label) ih rfl]
      refine modify_map (NoteCall.nodup_labels _) (fun _ => rfl) NoteCall.note_concat_refer.symm ?_
      intro other hother
      exact NoteCall.note_concat_of_ne (by simp [hother.symm]) fun _ => nofun
    | beginDefinition label =>
      refine (notes_know_of_notes (.beginDefinition label) ih rfl).trans ?_
      refine List.map_congr_left fun other _ => Eq.symm ?_
      exact NoteCall.note_concat_of_ne nofun fun _ => nofun
    | endDefinition body =>
      rw [NoteCall.labels_concat_of_none rfl]
      exact notes_endDefinition_of_notes body ih (current_run calls)

end Footnotes

/-! ## The notes of a page -/

theorem Footnotes.after_cases (e : Event) :
    (∃ label, e = .footnoteReference label) ∨ (∃ label, e = .start (.footnoteDefinition label)) ∨
      e.noteLabel? = none ∧ ∀ fs : Footnotes, fs.after e = fs := by
  cases e with
  | footnoteReference label => exact .inl ⟨label, rfl⟩
  | start tag =>
    cases tag with
    | footnoteDefinition label => exact .inr (.inl ⟨label, rfl⟩)
    | _ => exact .inr (.inr ⟨rfl, fun _ => rfl⟩)
  | _ => exact .inr (.inr ⟨rfl, fun _ => rfl⟩)

namespace Renderer

theorem footnotes_endFootnote (r : Renderer) :
    ∃ body, r.endFootnote.footnotes = r.footnotes.endDefinition body := by
  unfold endFootnote
  split
  · split
    · exact ⟨_, rfl⟩
    · exact ⟨_, rfl⟩
  · next hcurrent =>
    have hnone : r.footnotes.current = none := by simpa using hcurrent
    exact ⟨[], (Footnotes.endDefinition_of_none hnone).symm⟩

/-- The notes of a page are those of calls, which name the labels of its events. -/
theorem exists_noteCalls (es : List (Event × Option Nat)) :
    ∃ calls, (({} : Renderer).steps es).footnotes = Footnotes.run calls ∧
      calls.filterMap NoteCall.label? = (es.map (·.1)).filterMap (·.noteLabel?) ∧
      ∀ label, .beginDefinition label ∈ calls → .start (.footnoteDefinition label) ∈ es.map (·.1) := by
  induction es using List.reverseRecOn with
  | nil => exact ⟨[], rfl, rfl, fun _ hmem => by cases hmem⟩
  | append_singleton es e ih =>
    obtain ⟨calls, hcalls, hlabels, hbegun⟩ := ih
    obtain ⟨e, line⟩ := e
    -- one more call, for an event with the same label
    have hcall : ∀ call : NoteCall, call.label? = e.noteLabel? →
        (∀ label, call = .beginDefinition label → e = .start (.footnoteDefinition label)) →
        ((({} : Renderer).steps es).step e line).footnotes = (Footnotes.run calls).call call →
        ∃ calls, (({} : Renderer).steps (es ++ [(e, line)])).footnotes = Footnotes.run calls ∧
          calls.filterMap NoteCall.label? =
            ((es ++ [(e, line)]).map (·.1)).filterMap (·.noteLabel?) ∧
          ∀ label, .beginDefinition label ∈ calls →
            .start (.footnoteDefinition label) ∈ (es ++ [(e, line)]).map (·.1) := by
      intro call hlabel hbegin hstep
      refine ⟨calls ++ [call], ?_, ?_, fun label hmem => ?_⟩
      · rw [steps_concat, hstep, Footnotes.run, Footnotes.run, List.foldl_append]
        rfl
      · simp [hlabels, List.filterMap_cons, hlabel]
      · rw [List.map_append, List.mem_append]
        rcases List.mem_append.1 hmem with hmem | hmem
        · exact .inl (hbegun label hmem)
        · exact .inr (List.mem_singleton.2 (hbegin label (List.mem_singleton.1 hmem).symm).symm)
    by_cases hstop : e = .stop .footnoteDefinition
    · subst hstop
      obtain ⟨body, hbody⟩ := footnotes_endFootnote (({} : Renderer).steps es)
      exact hcall (.endDefinition body) rfl nofun (by rw [← hcalls]; exact hbody)
    · have hafter := footnotes_step (({} : Renderer).steps es) hstop line
      rw [hcalls] at hafter
      rcases Footnotes.after_cases e with ⟨label, rfl⟩ | ⟨label, rfl⟩ | ⟨hnone, hsame⟩
      · exact hcall (.refer label) rfl nofun hafter
      · exact hcall (.beginDefinition label) rfl (by rintro _ ⟨⟩; rfl) hafter
      · rw [hsame] at hafter
        refine ⟨calls, ?_, ?_, fun label hmem => ?_⟩
        · rw [steps_concat, hafter]
        · simp [hlabels, hnone]
        · rw [List.map_append]
          exact List.mem_append_left _ (hbegun label hmem)

/-- What is known of the notes of a page: the labels of the events, and a text only for those of
definitions that have begun. -/
theorem exists_notes_steps (es : List (Event × Option Nat)) :
    ∃ note : Text → Note, (({} : Renderer).steps es).footnotes.notes =
        (noteLabels (es.map (·.1))).map note ∧
      (∀ label, (note label).label = label) ∧
      ∀ label, (note label).body.isSome = true →
        .start (.footnoteDefinition label) ∈ es.map (·.1) := by
  obtain ⟨calls, hcalls, hlabels, hbegun⟩ := exists_noteCalls es
  refine ⟨note calls, ?_, fun _ => rfl, fun label hbody => hbegun label ?_⟩
  · rw [hcalls, Footnotes.notes_run, labels, hlabels]
    rfl
  · refine Decidable.byContradiction fun hnone => ?_
    have hbody : (body? calls label).isSome = true := hbody
    rw [NoteCall.body?_of_not_begun hnone] at hbody
    cases hbody

/-- A reference is given the place of its label among all labels of the page. -/
theorem number_refer_steps (es : List (Event × Option Nat)) (label : Text) (later : List Event) :
    ((({} : Renderer).steps es).footnotes.refer label).number label =
      noteNumber (es.map (·.1) ++ .footnoteReference label :: later) label := by
  obtain ⟨note, hnotes, hlabel, -⟩ := exists_notes_steps (es ++ [(.footnoteReference label, none)])
  have hrefer : (({} : Renderer).steps (es ++ [(.footnoteReference label, none)])).footnotes =
      (({} : Renderer).steps es).footnotes.refer label := by
    rw [steps_concat]
    exact footnotes_step _ (e := .footnoteReference label) (by simp) none
  have hmem : label ∈ noteLabels (es.map (·.1) ++ [.footnoteReference label]) :=
    Markdown.mem_noteLabels List.mem_concat_self rfl
  have hsplit : es.map (·.1) ++ .footnoteReference label :: later =
      es.map (·.1) ++ [.footnoteReference label] ++ later := by simp
  rw [hrefer, List.map_append] at hnotes
  rw [hsplit, noteNumber_append hmem]
  exact Footnotes.number_of_notes hnotes hlabel label

end Renderer

end Galley.Render
