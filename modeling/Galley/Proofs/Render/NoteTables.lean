import Galley.Proofs.Render.NoteCall

/-!
# The tables of the notes

The tables stay in step with the list of the notes: a call on the tables of a list of notes does not
fail, and gives the tables of the list after the call (`Footnotes.call_tables`). So what holds of the
tables is read off the list.
-/

namespace Galley.Render

open NoteCall (labels note body?)

namespace Footnotes

variable {label : Text}

/-! ## The tables in step with the list -/

theorem number_know (fs : Footnotes) (label : Text) :
    (fs.know label).number label = fs.number label := by
  unfold know
  split
  · rfl
  · next hnew =>
    have hlast : fs.notes.findIdx (·.label = label) = fs.notes.length := by
      rw [List.findIdx_eq_length]
      simpa using hnew
    simp [number, List.findIdx_append, hlast]

theorem map_modify {α : Type} {f : Note → Note} {g : Note → α} (hg : ∀ note, g (f note) = g note)
    (label : Text) (notes : List Note) : (modify label f notes).map g = notes.map g := by
  induction notes with
  | nil => rfl
  | cons note notes ih =>
    rw [modify]
    split
    · simp [hg]
    · simp [ih]

theorem lookup_zipIdx_map (notes : List Note) (label : Text) (k : Nat) :
    ((notes.map (·.label)).zipIdx k).lookup label =
      if notes.any (·.label = label) then some (notes.findIdx (·.label = label) + k) else none := by
  induction notes generalizing k with
  | nil => rfl
  | cons note notes ih =>
    rw [List.map_cons, List.zipIdx_cons, List.lookup_cons, List.any_cons, List.findIdx_cons]
    by_cases hlabel : note.label = label
    · simp [hlabel]
    · rw [beq_eq_false_iff_ne.2 (Ne.symm hlabel), decide_eq_false hlabel, ih]
      simp only [Bool.false_or, cond_false, Nat.add_assoc, Nat.add_comm 1 k]

theorem number?_tables (fs : Footnotes) (label : Text) : fs.tables.number? label =
    if fs.notes.any (·.label = label) then some (fs.number label) else none :=
  lookup_zipIdx_map fs.notes label 1

theorem number_tables (fs : Footnotes) (label : Text) :
    fs.tables.number label = ((fs.know label).tables, fs.number label) := by
  unfold NoteTables.number
  rw [number?_tables, ← number_know]
  unfold know
  by_cases hknown : fs.notes.any (·.label = label) = true
  · rw [if_pos hknown, if_pos hknown]
  · have hlast : fs.notes.findIdx (·.label = label) = fs.notes.length := by
      rw [List.findIdx_eq_length]
      simpa using hknown
    rw [if_neg hknown, if_neg hknown]
    simp [tables, number, List.zipIdx_append, List.findIdx_append, hlast, Nat.add_comm 1]

theorem store?_number {α : Type} {f : Note → Note} {g : Note → α} {a : α}
    (hg : ∀ note, g (f note) = a) (fs : Footnotes) (label : Text) :
    NoteTables.store? (fs.number label) a ((fs.know label).notes.map g) =
      some ((modify label f (fs.know label).notes).map g) := by
  have hknown := any_know fs label
  rw [← number_know, number]
  generalize (fs.know label).notes = notes at hknown ⊢
  have hlt : notes.findIdx (·.label = label) < (notes.map g).length := by
    rw [List.length_map, List.findIdx_lt_length]
    exact List.any_eq_true.1 hknown
  rw [NoteTables.store?, if_pos hlt]
  clear hlt
  -- both the number and the change go to the first note with the label
  induction notes with
  | nil => cases hknown
  | cons note notes ih =>
    rw [List.any_cons, Bool.or_eq_true, decide_eq_true_eq] at hknown
    rw [List.findIdx_cons, modify, List.map_cons]
    by_cases hlabel : note.label = label
    · simp [hlabel, hg]
    · have hrest := Option.some.inj (ih (hknown.resolve_left hlabel))
      simp [hlabel, hrest]

theorem refer_tables (fs : Footnotes) (label : Text) :
    fs.tables.refer label = some ((fs.refer label).tables, fs.number label) := by
  have hstored := store?_number (f := ({ · with referenced := true })) (g := (·.referenced))
    (fun _ => rfl) fs label
  rw [NoteTables.refer, number_tables]
  show (NoteTables.store? _ true ((fs.know label).notes.map (·.referenced))).bind _ = _
  rw [hstored]
  simp [tables, refer, map_modify]

theorem know_with_current (fs : Footnotes) (current : Option Text) (label : Text) :
    { fs with current }.know label = { fs.know label with current } := by
  unfold know
  split <;> rfl

theorem define_tables (fs : Footnotes) (label body : Text) :
    fs.tables.define label body = some (tables { fs.know label with
      notes := modify label ({ · with body := some body }) (fs.know label).notes }) := by
  have hstored := store?_number (f := ({ · with body := some body })) (g := (·.body))
    (fun _ => rfl) fs label
  rw [NoteTables.define, number_tables]
  show (NoteTables.store? _ (some body) ((fs.know label).notes.map (·.body))).bind _ = _
  rw [hstored]
  simp [tables, map_modify]

theorem endDefinition_tables (fs : Footnotes) (body : Text) :
    fs.tables.endDefinition body = some (fs.endDefinition body).tables := by
  have hcurrent : fs.tables.current = fs.current := rfl
  unfold NoteTables.endDefinition
  rw [hcurrent]
  cases hopen : fs.current with
  | none => rw [endDefinition_of_none hopen]
  | some label =>
    show NoteTables.define (tables { fs with current := none }) label body = _
    rw [define_tables, know_with_current]
    unfold endDefinition
    rw [hopen]

/-- A call on the tables of the notes does not fail, and gives those of the notes after it. -/
theorem call_tables (fs : Footnotes) (call : NoteCall) :
    fs.tables.call call = some (fs.call call).tables := by
  cases call with
  | refer label =>
    show (fs.tables.refer label).map _ = _
    rw [refer_tables]
    rfl
  | beginDefinition label =>
    show some (fs.tables.beginDefinition label) = _
    rw [NoteTables.beginDefinition, number_tables]
    rfl
  | endDefinition body => exact endDefinition_tables fs body

theorem run_tables (calls : List NoteCall) : NoteTables.run calls = some (run calls).tables := by
  induction calls using List.reverseRecOn with
  | nil => rfl
  | append_singleton calls call ih =>
    have hrun : run (calls ++ [call]) = (run calls).call call := List.foldl_append
    have hfold : NoteTables.run (calls ++ [call]) = (NoteTables.run calls).bind (·.call call) := by
      simp [NoteTables.run]
    rw [hfold, ih, hrun, Option.bind_some, call_tables]

theorem number?_run (calls : List NoteCall) (label : Text) (n : Nat) :
    (run calls).tables.number? label = some n ↔ 0 < n ∧ (labels calls)[n - 1]? = some label := by
  have hnotes := notes_run calls
  have hknown : (run calls).notes.any (·.label = label) = decide (label ∈ labels calls) := by
    rw [hnotes, any_map fun _ => rfl]
  rw [number?_tables, hknown, number_of_notes hnotes (fun _ => rfl)]
  simp only [decide_eq_true_eq]
  constructor
  · intro h
    split at h
    · next hmem =>
      obtain rfl := Option.some.inj h
      exact ⟨Nat.succ_pos _, List.getElem?_idxOf hmem⟩
    · cases h
  · rintro ⟨hpos, hget⟩
    have hmem := List.mem_of_getElem? hget
    obtain ⟨hlt, hget⟩ := List.getElem?_eq_some_iff.1 hget
    rw [if_pos hmem, ← hget, (NoteCall.nodup_labels calls).idxOf_getElem]
    congr 1
    omega

end Footnotes

/-- The numbers are those from one to the number of labels, each one that of the label in its place. -/
structure Numbers (labels : List Text) (number? : Text → Option Nat) : Prop where
  isSome_iff : ∀ label, (number? label).isSome = true ↔ label ∈ labels
  range : ∀ n, (∃ label, number? label = some n) ↔ 1 ≤ n ∧ n ≤ labels.length
  injective : ∀ label label' n, number? label = some n → number? label' = some n → label = label'
  order : ∀ i label, labels[i]? = some label → number? label = some (i + 1)

theorem Numbers.of_iff {labels : List Text} {number? : Text → Option Nat}
    (h : ∀ label n, number? label = some n ↔ 0 < n ∧ labels[n - 1]? = some label) :
    Numbers labels number? where
  isSome_iff label := by
    constructor
    · intro hsome
      obtain ⟨n, hn⟩ := Option.isSome_iff_exists.1 hsome
      exact List.mem_of_getElem? ((h label n).1 hn).2
    · intro hmem
      obtain ⟨i, hi⟩ := List.getElem?_of_mem hmem
      rw [(h label (i + 1)).2 ⟨Nat.succ_pos i, hi⟩]
      rfl
  range n := by
    constructor
    · rintro ⟨label, hlabel⟩
      obtain ⟨hpos, hget⟩ := (h label n).1 hlabel
      obtain ⟨hlt, -⟩ := List.getElem?_eq_some_iff.1 hget
      omega
    · rintro ⟨hpos, hle⟩
      exact ⟨labels[n - 1], (h _ n).2 ⟨hpos, List.getElem?_eq_getElem (by omega)⟩⟩
  injective label label' n hlabel hlabel' := by
    have hget := ((h label n).1 hlabel).2
    have hget' := ((h label' n).1 hlabel').2
    exact Option.some.inj (hget.symm.trans hget')
  order i label hget := (h label (i + 1)).2 ⟨Nat.succ_pos i, hget⟩

namespace NoteTables

/-- The numbers and the tables stay in step: no call fails, the labels that the calls name have the
numbers from one on in the order in which they are named first, each number has a place in both
tables that holds what the calls tell of its label, and later calls leave the numbers as they are.
The numbers and the tables are those of the notes that are kept for a page. -/
theorem run_calls (calls : List NoteCall) : ∃ tables, run calls = some tables ∧
    tables.referenced.length = (labels calls).length ∧
    tables.definitions.length = (labels calls).length ∧
    Numbers (labels calls) tables.number? ∧
    (∀ label n, tables.number? label = some n →
      tables.referenced[n - 1]? = some (decide (.refer label ∈ calls)) ∧
      tables.definitions[n - 1]? = some (body? calls label)) ∧
    (∀ later, ∃ tables', run (calls ++ later) = some tables' ∧
      ∀ label n, tables.number? label = some n → tables'.number? label = some n) ∧
    tables = (Footnotes.run calls).tables ∧
    ∀ label, tables.refer label =
      some (((Footnotes.run calls).refer label).tables, (Footnotes.run calls).number label) := by
  have hnotes := Footnotes.notes_run calls
  have hnumber := Footnotes.number?_run calls
  refine ⟨_, Footnotes.run_tables calls, ?_, ?_, ?_, ?_, ?_, rfl, Footnotes.refer_tables _⟩
  · simp [Footnotes.tables, hnotes]
  · simp [Footnotes.tables, hnotes]
  · exact .of_iff hnumber
  · intro label n hlabel
    obtain ⟨-, hget⟩ := (hnumber label n).1 hlabel
    simp [Footnotes.tables, hnotes, hget, note]
  · intro later
    refine ⟨_, Footnotes.run_tables _, fun label n hlabel => ?_⟩
    obtain ⟨hpos, hget⟩ := (hnumber label n).1 hlabel
    rw [Footnotes.number?_run]
    obtain ⟨new, hlabels⟩ := NoteCall.labels_prefix_append calls later
    obtain ⟨hlt, -⟩ := List.getElem?_eq_some_iff.1 hget
    rw [← hlabels, List.getElem?_append_left hlt]
    exact ⟨hpos, hget⟩

/-- An end without a beginning stores nothing, and the first definition keeps its number when it is
referenced later. -/
theorem run_calls_definitionFirst :
    ∃ tables, run [.endDefinition "x".toList, .beginDefinition "b".toList, .refer "a".toList,
        .endDefinition "B".toList] = some tables ∧
      tables.number? "b".toList = some 1 ∧ tables.number? "a".toList = some 2 ∧
      tables.definitions[0]? = some (some "B".toList) ∧ tables.definitions[1]? = some none ∧
      ∃ tables', run [.endDefinition "x".toList, .beginDefinition "b".toList, .refer "a".toList,
          .endDefinition "B".toList, .refer "b".toList] = some tables' ∧
        tables'.number? "b".toList = some 1 := by
  obtain ⟨tables, hrun, -, -, hnumbers, hplaces, hlater, -, -⟩ :=
    run_calls [.endDefinition "x".toList, .beginDefinition "b".toList, .refer "a".toList,
      .endDefinition "B".toList]
  have hfirst := hnumbers.order 0 "b".toList (by decide)
  have hsecond := hnumbers.order 1 "a".toList (by decide)
  obtain ⟨tables', hrun', hkept⟩ := hlater [.refer "b".toList]
  exact ⟨tables, hrun, hfirst, hsecond, (hplaces _ _ hfirst).2, (hplaces _ _ hsecond).2, tables', hrun',
    hkept _ _ hfirst⟩

end NoteTables

end Galley.Render
