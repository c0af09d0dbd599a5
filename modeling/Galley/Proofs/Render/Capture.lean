import Galley.Proofs.Render.Frame
import Galley.Proofs.Render.Nesting
import Galley.Proofs.Render.Notes

/-!
# Definitions put aside

While a footnote is defined, the page stands aside and what is written goes to the note. There is
one place for a page put aside, so this keeps every text only if no definition starts inside
another: `InTurn` describes such events. Then the page shows what was written outside of all
definitions, and each note what was written inside its own (`InTurn.captured`).
-/

namespace Galley.Markdown

/-- The labels of the definitions that are open behind an event, innermost first. -/
def openNotes (opened : List Text) : Event → List Text
  | .start (.footnoteDefinition label) => label :: opened
  | .stop .footnoteDefinition => opened.tail
  | _ => opened

theorem openNotes_of_not_isNoteMark (opened : List Text) {e : Event} (he : e.isNoteMark = false) :
    openNotes opened e = opened := by
  unfold openNotes
  split <;> first | rfl | cases he

namespace Forest

def endsInParagraph : Forest → Bool
  | .nil => false
  | .leaf _ _ rest => rest.endsInParagraph
  | .element tag _ _ _ .nil => tag = .paragraph
  | .element _ _ _ _ rest => rest.endsInParagraph

/-- Whether the definitions of the labels `strict` end with a paragraph. -/
def notesEndInParagraph (strict : List Text) : Forest → Bool
  | .nil => true
  | .leaf _ _ rest => rest.notesEndInParagraph strict
  | .element (.footnoteDefinition label) _ _ inner rest =>
    (!strict.contains label || inner.endsInParagraph) && inner.notesEndInParagraph strict &&
      rest.notesEndInParagraph strict
  | .element _ _ _ inner rest => inner.notesEndInParagraph strict && rest.notesEndInParagraph strict

theorem notesEndInParagraph_nil (f : Forest) : f.notesEndInParagraph [] = true := by
  fun_induction notesEndInParagraph [] f <;> simp_all

end Forest

end Galley.Markdown

namespace Galley.Render

open Markdown (Event Forest Tag noteLabels noteLabels_append_of_none noteLabels_append_of_some openNotes)

/-! ## Pieces -/

/-- What an event wrote, and the definition that it stood in. -/
structure Piece where
  place : Option Text
  html : Text

def writtenAt (place : Option Text) (ps : List Piece) : Text :=
  (ps.filter (·.place = place)).flatMap (·.html)

theorem writtenAt_append (place : Option Text) (ps qs : List Piece) :
    writtenAt place (ps ++ qs) = writtenAt place ps ++ writtenAt place qs := by
  simp [writtenAt]

theorem writtenAt_singleton_self (place : Option Text) (html : Text) :
    writtenAt place [⟨place, html⟩] = html := by
  simp [writtenAt]

theorem writtenAt_singleton_of_ne {place other : Option Text} (h : other ≠ place) (html : Text) :
    writtenAt place [⟨other, html⟩] = [] := by
  simp [writtenAt, h]

theorem writtenAt_of_forall_ne {place : Option Text} {ps : List Piece}
    (h : ∀ p ∈ ps, p.place ≠ place) : writtenAt place ps = [] := by
  have hfilter : ps.filter (·.place = place) = [] := by
    rw [List.filter_eq_nil_iff]
    simpa using h
  rw [writtenAt, hfilter]
  rfl

theorem infix_writtenAt {ps : List Piece} {p : Piece} (h : p ∈ ps) :
    p.html <:+: writtenAt p.place ps := by
  obtain ⟨before, after, rfl⟩ := List.append_of_mem h
  refine ⟨writtenAt p.place before, writtenAt p.place after, ?_⟩
  have hself : writtenAt p.place [p] = p.html := writtenAt_singleton_self p.place p.html
  rw [← hself, ← writtenAt_append, ← writtenAt_append]
  simp

namespace Renderer

/-- The pieces that events write, inside the definitions of the labels `opened`. -/
def pieces (r : Renderer) (opened : List Text) : List (Event × Option Nat) → List Piece
  | [] => []
  | (e, line) :: es => ⟨opened.head?, r.written e line⟩ :: pieces (r.step e line) (openNotes opened e) es

theorem steps_append (r : Renderer) (es es' : List (Event × Option Nat)) :
    r.steps (es ++ es') = (r.steps es).steps es' := List.foldl_append

theorem steps_concat (r : Renderer) (es : List (Event × Option Nat)) (e : Event)
    (line : Option Nat) : r.steps (es ++ [(e, line)]) = (r.steps es).step e line :=
  steps_append r es [(e, line)]

theorem pieces_append (r : Renderer) (opened : List Text) (es es' : List (Event × Option Nat)) :
    r.pieces opened (es ++ es') = r.pieces opened es ++
      (r.steps es).pieces ((es.map (·.1)).foldl openNotes opened) es' := by
  induction es generalizing r opened with
  | nil => rfl
  | cons e es ih => exact congrArg _ (ih (r.step e.1 e.2) (openNotes opened e.1))

theorem written_of_isNoteMark (r : Renderer) {e : Event} (he : e.isNoteMark = true)
    (line : Option Nat) : r.written e line = [] := by
  have hend : r.emptied.endFootnote.output = [] := by
    unfold endFootnote
    split <;> rfl
  unfold Event.isNoteMark at he
  split at he
  · rfl
  · exact hend
  · cases he

theorem endFootnote_eq {r : Renderer} {label page : Text}
    (hcurrent : r.footnotes.current = some label) (hsaved : r.saved = some page) :
    r.endFootnote = { r with
      output := page, saved := none, footnotes := r.footnotes.endDefinition r.output } := by
  unfold endFootnote
  rw [hcurrent, hsaved]
  rfl

end Renderer

theorem Footnotes.current_after (fs : Footnotes) {e : Event} (he : e.isNoteMark = false) :
    (fs.after e).current = fs.current := by
  unfold after
  split
  · exact current_know fs _
  · cases he
  · rfl

/-! ## What a document shows -/

/-- The note of a label, if the definition of `opened` has not ended yet. -/
def noteOf (opened : Option Text) (events : List Event) (ps : List Piece) (label : Text) : Note where
  label
  referenced := decide (.footnoteReference label ∈ events)
  body :=
    if .start (.footnoteDefinition label) ∈ events ∧ opened ≠ some label then
      some (writtenAt (some label) ps)
    else none

/-- The page that shows what events write where they stand: outside of all definitions on the page
itself, and inside a definition in the note of the innermost one. -/
def assembledPage (es : List (Event × Option Nat)) : Text :=
  let events := es.map (·.1)
  let ps := ({} : Renderer).pieces [] es
  writtenAt none ps ++
    Footnotes.sectionHtml { notes := (noteLabels events).map (noteOf none events ps) }

section notes

variable {events : List Event} {ps : List Piece} {opened : Option Text} {label : Text} {html : Text}

theorem noteOf_of_not_mem (h : label ∉ noteLabels events) :
    noteOf opened events ps label = { label } := by
  have hreference : .footnoteReference label ∉ events :=
    fun hmem => h (Markdown.mem_noteLabels hmem rfl)
  have hstart : .start (.footnoteDefinition label) ∉ events :=
    fun hmem => h (Markdown.mem_noteLabels hmem rfl)
  simp [noteOf, hreference, hstart]

theorem noteOf_append {e : Event} (he : e.isNoteMark = false) :
    noteOf opened (events ++ [e]) (ps ++ [⟨opened, html⟩]) label =
      { noteOf opened events ps label with
        referenced := (noteOf opened events ps label).referenced ||
          decide (e = .footnoteReference label) } := by
  have hstart : .start (.footnoteDefinition label) ≠ e := by
    rintro rfl
    cases he
  have hreference : (.footnoteReference label ∈ events ++ [e]) ↔
      .footnoteReference label ∈ events ∨ e = .footnoteReference label := by
    simp [eq_comm]
  have hmem : (.start (.footnoteDefinition label) ∈ events ++ [e]) ↔
      .start (.footnoteDefinition label) ∈ events := by
    simp [hstart]
  by_cases hopened : opened = some label
  · simp [noteOf, hreference, hopened]
  · simp [noteOf, hreference, hmem, hopened, writtenAt_append, writtenAt_singleton_of_ne hopened]

theorem noteOf_append_start {other : Text} (hnew : .start (.footnoteDefinition label) ∉ events) :
    noteOf (some label) (events ++ [.start (.footnoteDefinition label)]) (ps ++ [⟨none, html⟩]) other =
      noteOf none events ps other := by
  have hwritten : writtenAt (some other) (ps ++ [⟨none, html⟩]) = writtenAt (some other) ps := by
    simp [writtenAt_append, writtenAt_singleton_of_ne]
  by_cases hother : other = label
  · subst hother
    simp [noteOf, hnew]
  · simp [noteOf, hwritten, hother, Ne.symm hother]

theorem noteOf_append_stop {other : Text} (hmem : .start (.footnoteDefinition label) ∈ events) :
    noteOf none (events ++ [.stop .footnoteDefinition]) (ps ++ [⟨some label, []⟩]) other =
      if other = label then
        { noteOf (some label) events ps other with body := some (writtenAt (some label) ps) }
      else noteOf (some label) events ps other := by
  have hwritten : writtenAt (some other) (ps ++ [⟨some label, []⟩]) = writtenAt (some other) ps := by
    have hnil : writtenAt (some other) [⟨some label, []⟩] = [] := by
      by_cases hlabel : label = other
      · rw [hlabel, writtenAt_singleton_self]
      · exact writtenAt_singleton_of_ne (by simpa using hlabel) []
    rw [writtenAt_append, hnil, List.append_nil]
  by_cases hother : other = label
  · subst hother
    simp [noteOf, hwritten, hmem]
  · simp [noteOf, hwritten, hother, Ne.symm hother]

end notes

/-! ## Definitions in turn -/

/-- Events in which no definition starts inside another. At the end, the definition of `opened` has
not ended. The definitions of the labels `strict` end with a paragraph. -/
inductive InTurn (strict : List Text) : List (Event × Option Nat) → Option Text → Prop
  | nil : InTurn strict [] none
  | start {es : List (Event × Option Nat)} (h : InTurn strict es none) (label : Text)
      (line : Option Nat) :
      InTurn strict (es ++ [(.start (.footnoteDefinition label), line)]) (some label)
  | stop {es : List (Event × Option Nat)} {label : Text} (h : InTurn strict es (some label))
      (hend : label ∈ strict → ∃ line', [(.stop .paragraph, line')] <:+ es)
      (line : Option Nat) : InTurn strict (es ++ [(.stop .footnoteDefinition, line)]) none
  | other {es : List (Event × Option Nat)} {opened : Option Text} {e : Event}
      (h : InTurn strict es opened) (he : e.isNoteMark = false) (line : Option Nat) :
      InTurn strict (es ++ [(e, line)]) opened

namespace InTurn

variable {strict : List Text} {es : List (Event × Option Nat)} {opened : Option Text}

theorem foldl_openNotes (h : InTurn strict es opened) :
    (es.map (·.1)).foldl openNotes [] = opened.toList := by
  induction h with
  | nil => rfl
  | start h label line ih => simp [ih, openNotes]
  | stop h hend line ih => simp [ih, openNotes]
  | other h he line ih => simp [ih, Markdown.openNotes_of_not_isNoteMark _ he]

theorem pieces_append (h : InTurn strict es opened) (e : Event) (line : Option Nat) :
    ({} : Renderer).pieces [] (es ++ [(e, line)]) =
      ({} : Renderer).pieces [] es ++ [⟨opened, (({} : Renderer).steps es).written e line⟩] := by
  rw [Renderer.pieces_append, h.foldl_openNotes]
  cases opened <;> rfl

theorem start_mem (h : InTurn strict es opened) :
    ∀ label, opened = some label → .start (.footnoteDefinition label) ∈ es.map (·.1) := by
  induction h with
  | nil => intro label hlabel; cases hlabel
  | start h label line ih =>
    intro other hother
    obtain rfl := Option.some.inj hother
    simp
  | stop h hend line ih => intro label hlabel; cases hlabel
  | other h he line ih =>
    intro label hlabel
    rw [List.map_append]
    exact List.mem_append_left _ (ih label hlabel)

theorem start_mem_of_mem_pieces (h : InTurn strict es opened) {p : Piece}
    (hp : p ∈ ({} : Renderer).pieces [] es) {label : Text} (hlabel : p.place = some label) :
    .start (.footnoteDefinition label) ∈ es.map (·.1) := by
  have hstep : ∀ {es : List (Event × Option Nat)} {opened : Option Text} (e : Event)
      (line : Option Nat), InTurn strict es opened →
      (p ∈ ({} : Renderer).pieces [] es → .start (.footnoteDefinition label) ∈ es.map (·.1)) →
      p ∈ ({} : Renderer).pieces [] (es ++ [(e, line)]) →
      .start (.footnoteDefinition label) ∈ (es ++ [(e, line)]).map (·.1) := by
    intro es opened e line h ih hp
    rw [h.pieces_append] at hp
    rw [List.map_append]
    refine List.mem_append_left _ ?_
    rcases List.mem_append.1 hp with hmem | hmem
    · exact ih hmem
    · refine h.start_mem label ?_
      rw [List.mem_singleton.1 hmem] at hlabel
      exact hlabel
  induction h with
  | nil => cases hp
  | start h label line ih => exact hstep _ line h ih hp
  | stop h hend line ih => exact hstep _ line h ih hp
  | other h he line ih => exact hstep _ line h ih hp

theorem current_and_saved (h : InTurn strict es opened) :
    (({} : Renderer).steps es).footnotes.current = opened ∧
      (({} : Renderer).steps es).saved.isSome = opened.isSome := by
  induction h with
  | nil => exact ⟨rfl, rfl⟩
  | start h label line ih =>
    rw [Renderer.steps_concat]
    exact ⟨rfl, rfl⟩
  | stop h hend line ih =>
    obtain ⟨page, hsaved⟩ := Option.isSome_iff_exists.1 ih.2
    have hstep := Renderer.endFootnote_eq ih.1 hsaved
    rw [Renderer.steps_concat]
    show (Renderer.endFootnote _).footnotes.current = none ∧ (Renderer.endFootnote _).saved.isSome = _
    rw [hstep]
    exact ⟨Footnotes.current_endDefinition _ _, rfl⟩
  | @other es opened e h he line ih =>
    have hne : e ≠ .stop .footnoteDefinition := by
      rintro rfl
      cases he
    rw [Renderer.steps_concat, Renderer.footnotes_step _ hne, Footnotes.current_after _ he,
      Renderer.saved_step _ _ he]
    exact ih

end InTurn

/-! ## Documents -/

namespace Renderer

theorem lined_element (lineOf? : Option (Nat → Nat)) (tag : Tag) (start stop : Nat)
    (inner rest : Forest) : lined lineOf? (.element tag start stop inner rest) =
      (.start tag, lineOf?.map (· start)) :: (lined lineOf? inner ++
        (.stop tag.toEnd, lineOf?.map (· stop)) :: lined lineOf? rest) := by
  simp [lined, Forest.located]

theorem map_fst_lined (lineOf? : Option (Nat → Nat)) (f : Forest) :
    (lined lineOf? f).map (·.1) = f.events := by
  simp [lined, Forest.events, Function.comp_def]

theorem mem_lined {lineOf? : Option (Nat → Nat)} {f : Forest} {e : Event × Option Nat}
    (h : e ∈ lined lineOf? f) : e.1 ∈ f.events := by
  rw [← map_fst_lined lineOf? f]
  exact List.mem_map_of_mem h

theorem lined_rest_suffix (lineOf? : Option (Nat → Nat)) (tag : Tag) (start stop : Nat)
    (inner rest : Forest) :
    lined lineOf? rest <:+ lined lineOf? (.element tag start stop inner rest) := by
  rw [lined_element]
  exact ((List.suffix_cons _ _).trans (List.suffix_append _ _)).trans (List.suffix_cons _ _)

theorem exists_suffix_of_endsInParagraph (lineOf? : Option (Nat → Nat)) {f : Forest}
    (h : f.endsInParagraph = true) : ∃ line, [(.stop .paragraph, line)] <:+ lined lineOf? f := by
  fun_induction Forest.endsInParagraph f with
  | case1 => cases h
  | case2 e offset rest ih =>
    obtain ⟨line, hrest⟩ := ih h
    exact ⟨line, hrest.trans (List.suffix_cons _ _)⟩
  | case3 tag start stop inner =>
    obtain rfl : tag = .paragraph := by simpa using h
    rw [lined_element]
    exact ⟨_, (List.suffix_append _ _).trans (List.suffix_cons _ _)⟩
  | case4 tag start stop inner rest hne ih =>
    obtain ⟨line, hrest⟩ := ih h
    exact ⟨line, hrest.trans (lined_rest_suffix lineOf? tag start stop inner rest)⟩

end Renderer

/-- In a document without nested definitions, definitions start and end in turn. -/
theorem inTurn_lined {strict : List Text} (lineOf? : Option (Nat → Nat)) {f : Forest}
    {c : Markdown.Content} {es : List (Event × Option Nat)} {opened : Option Text}
    (hfits : f.fits c = true) (hnotes : f.notesApart opened.isSome = true)
    (hends : f.notesEndInParagraph strict = true) (h : InTurn strict es opened) :
    InTurn strict (es ++ Renderer.lined lineOf? f) opened := by
  induction f generalizing c es opened with
  | nil => rwa [show Renderer.lined lineOf? .nil = [] from rfl, List.append_nil]
  | leaf e offset rest ih =>
    obtain ⟨hadmits, hrest⟩ := Forest.fits_leaf_iff.1 hfits
    obtain ⟨hstart, hstop⟩ := Renderer.ne_of_admits hadmits
    have hmark : e.isNoteMark = false := by
      unfold Event.isNoteMark
      split
      · exact absurd rfl (hstart _)
      · exact absurd rfl (hstop _)
      · rfl
    have hrest := ih hrest hnotes hends (h.other hmark (lineOf?.map (· offset)))
    rwa [List.append_assoc] at hrest
  | element tag start stop inner rest ihInner ihRest =>
    obtain ⟨hholds, hinner, hrest⟩ := Forest.fits_element_iff.1 hfits
    simp only [Forest.notesApart, Bool.and_eq_true, Bool.not_eq_true'] at hnotes
    obtain ⟨⟨hnote, hnotesInner⟩, hnotesRest⟩ := hnotes
    have hparts : es ++ Renderer.lined lineOf? (.element tag start stop inner rest) =
        es ++ [(.start tag, lineOf?.map (· start))] ++ Renderer.lined lineOf? inner ++
          [(.stop tag.toEnd, lineOf?.map (· stop))] ++ Renderer.lined lineOf? rest := by
      simp [Renderer.lined_element]
    rw [hparts]
    by_cases htag : tag.isNote = true
    · cases tag with
      | footnoteDefinition label =>
        obtain rfl : opened = none := by simpa [Markdown.Tag.isNote] using hnote
        simp only [Forest.notesEndInParagraph, Bool.and_eq_true, Bool.or_eq_true,
          Bool.not_eq_true'] at hends
        obtain ⟨⟨hend, hendsInner⟩, hendsRest⟩ := hends
        have hopened : inner.notesApart (some label).isSome = true := hnotesInner
        have hbody := ihInner hinner hopened hendsInner (h.start label (lineOf?.map (· start)))
        refine ihRest hrest hnotesRest hendsRest (hbody.stop (fun hstrict => ?_) _)
        have hparagraph : inner.endsInParagraph = true := by
          refine hend.resolve_left ?_
          simpa using hstrict
        obtain ⟨line', hsuffix⟩ := Renderer.exists_suffix_of_endsInParagraph lineOf? hparagraph
        exact ⟨line', hsuffix.trans (List.suffix_append _ _)⟩
      | _ => cases htag
    · have hfalse : tag.isNote = false := by simpa using htag
      have hmark : (Event.start tag).isNoteMark = false ∧ (Event.stop tag.toEnd).isNoteMark = false := by
        cases tag <;> first | exact ⟨rfl, rfl⟩ | cases hfalse
      have hends : inner.notesEndInParagraph strict = true ∧ rest.notesEndInParagraph strict = true := by
        cases tag <;> first | simpa [Forest.notesEndInParagraph] using hends | cases hfalse
      rw [hfalse, Bool.or_false] at hnotesInner
      exact ihRest hrest hnotesRest hends.2
        ((ihInner hinner hnotesInner hends.1 (h.other hmark.1 _)).other hmark.2 _)

theorem inTurn_document (lineOf? : Option (Nat → Nat)) {f : Forest} (hfits : f.fits .blocks = true)
    (hnotes : f.notesApart false = true) : InTurn [] (Renderer.lined lineOf? f) none := by
  have hturn : InTurn [] ([] ++ Renderer.lined lineOf? f) none :=
    inTurn_lined lineOf? hfits hnotes f.notesEndInParagraph_nil .nil
  rwa [List.nil_append] at hturn

/-! ## What was captured -/

/-- The state behind some events shows on the page what they wrote outside of definitions, in the
notes what they wrote inside the definitions that ended, and aside what they wrote inside the one
that has not. -/
structure Captured (es : List (Event × Option Nat)) (opened : Option Text) (r : Renderer)
    (ps : List Piece) : Prop where
  page : r.saved.getD r.output = writtenAt none ps
  body : ∀ label, opened = some label → r.output = writtenAt (some label) ps
  notes : r.footnotes.notes =
    (noteLabels (es.map (·.1))).map (noteOf opened (es.map (·.1)) ps)

namespace Captured

variable {es : List (Event × Option Nat)} {opened : Option Text} {r : Renderer} {ps : List Piece}
  {label : Text}

theorem start (h : Captured es none r ps) (hsaved : r.saved = none)
    (hnew : .start (.footnoteDefinition label) ∉ es.map (·.1))
    (hps : ∀ p ∈ ps, p.place ≠ some label) (line : Option Nat) :
    Captured (es ++ [(.start (.footnoteDefinition label), line)]) (some label)
      (r.step (.start (.footnoteDefinition label)) line) (ps ++ [⟨none, []⟩]) := by
  have hpage : r.output = writtenAt none ps := by
    have hpage := h.page
    rwa [hsaved] at hpage
  refine ⟨?_, ?_, ?_⟩
  · rw [writtenAt_append, writtenAt_singleton_self, List.append_nil]
    exact hpage
  · intro other hother
    obtain rfl := Option.some.inj hother
    rw [writtenAt_append, writtenAt_of_forall_ne hps, writtenAt_singleton_of_ne (by simp)]
    rfl
  · show (r.footnotes.know label).notes = _
    rw [Footnotes.notes_know (fun _ => rfl) (fun hmem => noteOf_of_not_mem hmem) h.notes,
      List.map_append, List.map_singleton, noteLabels_append_of_some _ rfl]
    refine List.map_congr_left fun other _ => ?_
    exact (noteOf_append_start hnew).symm

theorem stop {page : Text} (h : Captured es (some label) r ps)
    (hcurrent : r.footnotes.current = some label) (hsaved : r.saved = some page)
    (hmem : .start (.footnoteDefinition label) ∈ es.map (·.1)) (line : Option Nat) :
    Captured (es ++ [(.stop .footnoteDefinition, line)]) none
      (r.step (.stop .footnoteDefinition) line) (ps ++ [⟨some label, []⟩]) := by
  have hpage : page = writtenAt none ps := by
    have hpage := h.page
    rwa [hsaved] at hpage
  have hstep := Renderer.endFootnote_eq hcurrent hsaved
  show Captured _ _ r.endFootnote _
  rw [hstep]
  refine ⟨?_, fun other hother => ?_, ?_⟩
  · rw [writtenAt_append, writtenAt_singleton_of_ne (by simp), List.append_nil]
    exact hpage
  · cases hother
  · have hlabel := Markdown.mem_noteLabels hmem rfl
    have hknown := Footnotes.notes_know (fun _ => rfl) (fun h => absurd hlabel h) h.notes
    rw [if_pos hlabel] at hknown
    rw [Footnotes.notes_endDefinition hcurrent, hknown, List.map_append, List.map_singleton,
      noteLabels_append_of_none _ rfl]
    refine Footnotes.modify_map (Markdown.nodup_noteLabels _) (fun _ => rfl) ?_ fun other hother => ?_
    · rw [noteOf_append_stop hmem, if_pos rfl, h.body label rfl]
    · rw [noteOf_append_stop hmem, if_neg hother]

theorem other {e : Event} (h : Captured es opened r ps) (he : e.isNoteMark = false)
    (hsaved : r.saved.isSome = opened.isSome) (line : Option Nat) :
    Captured (es ++ [(e, line)]) opened (r.step e line) (ps ++ [⟨opened, r.written e line⟩]) := by
  have houtput := Renderer.output_step r line he
  have hfootnotes : (r.step e line).footnotes = r.footnotes.after e := by
    refine Renderer.footnotes_step r ?_ line
    rintro rfl
    cases he
  refine ⟨?_, fun label hlabel => ?_, ?_⟩
  · rw [Renderer.saved_step r line he, houtput, writtenAt_append]
    cases opened with
    | none =>
      have hnone : r.saved = none := by simpa using hsaved
      have hpage := h.page
      rw [hnone] at hpage ⊢
      rw [writtenAt_singleton_self, ← hpage]
      rfl
    | some label =>
      obtain ⟨page, hsome⟩ := Option.isSome_iff_exists.1 hsaved
      have hpage := h.page
      rw [hsome] at hpage ⊢
      rw [writtenAt_singleton_of_ne (by simp), List.append_nil]
      exact hpage
  · subst hlabel
    rw [houtput, h.body label rfl, writtenAt_append, writtenAt_singleton_self]
  · rw [hfootnotes, List.map_append, List.map_singleton]
    have hnote : ∀ label, noteOf opened (es.map (·.1) ++ [e])
        (ps ++ [⟨opened, r.written e line⟩]) label =
          { noteOf opened (es.map (·.1)) ps label with
            referenced := (noteOf opened (es.map (·.1)) ps label).referenced ||
              decide (e = .footnoteReference label) } := fun label => noteOf_append he
    by_cases hreference : ∃ label, e = .footnoteReference label
    · obtain ⟨label, rfl⟩ := hreference
      have hknown := Footnotes.notes_know (fun _ => rfl)
        (fun hnew : label ∉ _ => noteOf_of_not_mem hnew) h.notes
      show Footnotes.modify label _ (r.footnotes.know label).notes = _
      rw [hknown, noteLabels_append_of_some _ (e := .footnoteReference label) rfl]
      have hnodup := Markdown.nodup_noteLabels (es.map (·.1) ++ [.footnoteReference label])
      rw [noteLabels_append_of_some _ (e := .footnoteReference label) rfl] at hnodup
      refine Footnotes.modify_map hnodup (fun _ => rfl) ?_ fun other hother => ?_
      · simp [hnote]
      · simp [hnote, Ne.symm hother]
    · have hsame : r.footnotes.after e = r.footnotes := by
        unfold Footnotes.after
        split
        · exact absurd ⟨_, rfl⟩ hreference
        · cases he
        · rfl
      have hlabel : e.noteLabel? = none := by
        unfold Event.noteLabel?
        split
        · exact absurd ⟨_, rfl⟩ hreference
        · cases he
        · rfl
      rw [hsame, h.notes, noteLabels_append_of_none _ hlabel]
      refine List.map_congr_left fun label _ => ?_
      have hne : e ≠ .footnoteReference label := fun heq => hreference ⟨label, heq⟩
      simp [hnote, hne]

end Captured

namespace InTurn

variable {strict : List Text} {es : List (Event × Option Nat)} {opened : Option Text}

theorem captured (h : InTurn strict es opened)
    (hdistinct : ((es.map (·.1)).filterMap (·.definedLabel?)).Nodup) :
    Captured es opened (({} : Renderer).steps es) (({} : Renderer).pieces [] es) := by
  induction h with
  | nil =>
    refine ⟨rfl, ?_, rfl⟩
    intro label hlabel
    cases hlabel
  | @start es h label line ih =>
    rw [List.map_append, List.filterMap_append] at hdistinct
    obtain ⟨hdistinct, -, hnew⟩ := List.nodup_append.1 hdistinct
    have hnew : .start (.footnoteDefinition label) ∉ es.map (·.1) := fun hmem =>
      hnew label (List.mem_filterMap.2 ⟨_, hmem, rfl⟩) label List.mem_cons_self rfl
    have hsaved : (({} : Renderer).steps es).saved = none := by simpa using h.current_and_saved.2
    have hps : ∀ p ∈ ({} : Renderer).pieces [] es, p.place ≠ some label :=
      fun p hp hplace => hnew (h.start_mem_of_mem_pieces hp hplace)
    rw [Renderer.steps_concat, h.pieces_append, Renderer.written_of_isNoteMark _ rfl]
    exact (ih hdistinct).start hsaved hnew hps line
  | @stop es label h hend line ih =>
    rw [List.map_append, List.filterMap_append] at hdistinct
    obtain ⟨hdistinct, -, -⟩ := List.nodup_append.1 hdistinct
    obtain ⟨hcurrent, hsaved⟩ := h.current_and_saved
    obtain ⟨page, hpage⟩ := Option.isSome_iff_exists.1 hsaved
    rw [Renderer.steps_concat, h.pieces_append, Renderer.written_of_isNoteMark _ rfl]
    exact (ih hdistinct).stop hcurrent hpage (h.start_mem label rfl) line
  | @other es opened e h he line ih =>
    rw [List.map_append, List.filterMap_append] at hdistinct
    obtain ⟨hdistinct, -, -⟩ := List.nodup_append.1 hdistinct
    rw [Renderer.steps_concat, h.pieces_append]
    exact (ih hdistinct).other he h.current_and_saved.2 line

/-- Once every definition has ended, the page and its notes show what was written. -/
theorem output_append_sectionHtml (h : InTurn strict es none)
    (hdistinct : ((es.map (·.1)).filterMap (·.definedLabel?)).Nodup) :
    (({} : Renderer).steps es).output ++ (({} : Renderer).steps es).footnotes.sectionHtml =
      assembledPage es := by
  have hcaptured := h.captured hdistinct
  have hsaved : (({} : Renderer).steps es).saved = none := by simpa using h.current_and_saved.2
  have hpage := hcaptured.page
  rw [hsaved] at hpage
  have hsection : (({} : Renderer).steps es).footnotes.sectionHtml =
      Footnotes.sectionHtml { notes := (({} : Renderer).steps es).footnotes.notes } := rfl
  rw [hsection, hcaptured.notes]
  exact congrArg (· ++ _) hpage

end InTurn

end Galley.Render
