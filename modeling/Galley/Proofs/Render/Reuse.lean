import Galley.Proofs.Render.Leftover
import Galley.Proofs.Render.Straight

/-!
# Documents one after another

A renderer that ends a document keeps the counts of its ids and its footnotes. A heading that takes
its id from its text gets another id if this slug was used before, and the footnotes of the document
before stand among those of the next one. Nothing else of a well-nested document reaches the next
page (`Renderer.render_after`).
-/

namespace Galley

open Markdown (Content Event Forest)

namespace Render

/-! ## Ids -/

/-- Whether more uses of ids before leave the id of a heading as it is. -/
def OpenHeading.KeepsId (more : Text → Nat) (h : OpenHeading) : Prop :=
  h.explicitId = none → more (slug h.text) = 0

theorem Headings.idOf_eq_iff {ids ids' : IdCounts} {more : Text → Nat}
    (hids : ∀ base, ids'.uses base = ids.uses base + more base) (h : OpenHeading) :
    idOf ids' h = idOf ids h ↔ h.KeepsId more := by
  cases hid : h.explicitId with
  | some id => simp [idOf, OpenHeading.KeepsId, hid]
  | none =>
    rw [idOf_eq ids' hid, idOf_eq ids hid, numberedId_inj_iff, hids]
    simp [OpenHeading.KeepsId, hid]

namespace Renderer

def ended (r : Renderer) : List (Event × Option Nat) → List OpenHeading
  | [] => []
  | e :: es => (r.endedBy e.1).toList ++ (r.step e.1 e.2).ended es

theorem ids_step (r : Renderer) (e : Event) (line : Option Nat) : (r.step e line).headings.ids =
    (r.endedBy e).elim r.headings.ids fun h => r.headings.ids.use h.baseId :=
  congrArg Leftover.ids (leftover_step r e line)

theorem uses_steps (r : Renderer) (es : List (Event × Option Nat)) (base : Text) :
    (r.steps es).headings.ids.uses base =
      r.headings.ids.uses base + ((r.ended es).map (·.baseId)).count base := by
  induction es generalizing r with
  | nil => rfl
  | cons e es ih =>
    have hrest := ih (r.step e.1 e.2)
    rw [ids_step] at hrest
    rw [show r.steps (e :: es) = (r.step e.1 e.2).steps es from rfl, hrest, ended]
    cases r.endedBy e.1 with
    | none => rfl
    | some h =>
      simp only [Option.elim_some, Option.toList_some, List.cons_append, List.nil_append,
        List.map_cons, List.count_cons, IdCounts.uses_use, beq_iff_eq]
      omega

/-! ## Entries -/

theorem toc_step_of_endedBy {r : Renderer} {e : Event} {h : OpenHeading} (he : r.endedBy e = some h)
    (line : Option Nat) : (r.step e line).headings.toc = r.headings.toc ++ [r.headings.entry h] := by
  unfold endedBy at he
  split at he
  · show r.endHeading.headings.toc = _
    rw [endHeading_of_some he]
  · cases he

theorem toc_prefix_step (r : Renderer) (e : Event) (line : Option Nat) :
    r.headings.toc <+: (r.step e line).headings.toc := by
  cases hended : r.endedBy e with
  | some h => exact toc_step_of_endedBy hended line ▸ List.prefix_append _ _
  | none =>
    have htoc : (r.step e line).headings.toc = r.headings.toc := by
      cases he : e.isHeadingMark with
      | false => exact congrArg Prod.fst (frame_step r he line)
      | true =>
        unfold Event.isHeadingMark at he
        split at he
        · rfl
        · exact congrArg (·.headings.toc) (endHeading_of_none hended)
        · cases he
    exact htoc ▸ List.prefix_refl _

theorem toc_prefix_steps (r : Renderer) (es : List (Event × Option Nat)) :
    r.headings.toc <+: (r.steps es).headings.toc := by
  induction es generalizing r with
  | nil => exact List.prefix_refl _
  | cons e es ih => exact (toc_prefix_step r e.1 e.2).trans (ih (r.step e.1 e.2))

/-! ## Two runs -/

/-- The renderer would count ids more often with the leftovers, and nothing else that `es` reads
would differ. -/
structure Carries (more : Text → Nat) (es : List (Event × Option Nat)) (l : Leftover) (r : Renderer) :
    Prop where
  table : l.table = r.table
  ids : ∀ base, l.ids.uses base = r.headings.ids.uses base + more base
  footnotes : l.footnotes = r.footnotes ∨
    l.footnotes.sectionHtml = r.footnotes.sectionHtml ∧ ∀ e ∈ es, e.1.isOfNote = false

namespace Carries

variable {more : Text → Nat} {l : Leftover} {r : Renderer} {e : Event × Option Nat}
  {es : List (Event × Option Nat)}

theorem sectionHtml (h : Carries more es l r) :
    l.footnotes.sectionHtml = r.footnotes.sectionHtml :=
  h.footnotes.elim (congrArg _) And.left

theorem after (h : Carries more (e :: es) l r) :
    Carries more es (r.leftAfter l e.1 e.2) (r.step e.1 e.2) := by
  have hstep := leftover_step r e.1 e.2
  have htable : (r.step e.1 e.2).table = (r.leftAfter r.leftover e.1 e.2).table :=
    congrArg Leftover.table hstep
  have hnotes : (r.step e.1 e.2).footnotes = (r.leftAfter r.leftover e.1 e.2).footnotes :=
    congrArg Leftover.footnotes hstep
  refine ⟨?_, fun base => ?_, ?_⟩
  · rw [htable]
    simp [leftAfter, leftover, h.table]
  · rw [ids_step]
    cases hended : r.endedBy e.1 with
    | none => simpa [leftAfter, hended] using h.ids base
    | some opened =>
      simp only [leftAfter, hended, Option.elim_some, IdCounts.uses_use, h.ids base]
      omega
  · rw [hnotes]
    rcases h.footnotes with heq | ⟨hsection, hes⟩
    · exact .inl (by simp [leftAfter, leftover, heq])
    · rw [List.forall_mem_cons] at hes
      exact .inr ⟨by simpa [leftAfter, leftover, hes.1] using hsection, hes.2⟩

/-- The two runs stay together in a step that gives the same id. -/
theorem step_holding (h : Carries more (e :: es) l r)
    (hkeeps : ∀ opened, r.endedBy e.1 = some opened → opened.KeepsId more) :
    (r.holding l).step e.1 e.2 = (r.step e.1 e.2).holding (r.leftAfter l e.1 e.2) := by
  refine Renderer.step_holding r l e.2 (fun _ => h.table) (fun opened hended => ?_) fun hnote => ?_
  · exact (Headings.idOf_eq_iff h.ids opened).2 (hkeeps opened hended)
  · rcases h.footnotes with heq | ⟨-, hes⟩
    · exact heq
    · exact absurd hnote (Bool.eq_false_iff.1 (hes e List.mem_cons_self))

theorem steps (h : Carries more es l r) (hkeeps : ∀ opened ∈ r.ended es, opened.KeepsId more) :
    ∃ l', (r.holding l).steps es = (r.steps es).holding l' ∧ Carries more [] l' (r.steps es) := by
  induction es generalizing l r with
  | nil => exact ⟨l, rfl, h⟩
  | cons e es ih =>
    have hstep := h.step_holding fun opened hended =>
      hkeeps opened (List.mem_append_left _ (by simp [hended]))
    obtain ⟨l', hsteps, hcarries⟩ := ih h.after fun opened hopened =>
      hkeeps opened (List.mem_append_right _ hopened)
    rw [← hstep] at hsteps
    exact ⟨l', hsteps, hcarries⟩

theorem keepsId_of_toc_eq (h : Carries more es l r)
    (htoc : ((r.holding l).steps es).headings.toc = (r.steps es).headings.toc) :
    ∀ opened ∈ r.ended es, opened.KeepsId more := by
  induction es generalizing l r with
  | nil => exact fun _ hmem => absurd hmem List.not_mem_nil
  | cons e es ih =>
    have htoc : (((r.holding l).step e.1 e.2).steps es).headings.toc =
        ((r.step e.1 e.2).steps es).headings.toc := htoc
    have hkeeps : ∀ opened, r.endedBy e.1 = some opened → opened.KeepsId more := by
      intro opened hended
      have hstep' : ((r.holding l).step e.1 e.2).headings.toc =
          r.headings.toc ++ [(r.holding l).headings.entry opened] :=
        toc_step_of_endedBy (r := r.holding l) hended e.2
      have hbefore := toc_prefix_steps (r.step e.1 e.2) es
      have hbefore' := toc_prefix_steps ((r.holding l).step e.1 e.2) es
      rw [toc_step_of_endedBy hended] at hbefore
      rw [hstep', htoc] at hbefore'
      -- both runs have the entry of this heading at the same place
      have hlength : (r.headings.toc ++ [(r.holding l).headings.entry opened]).length ≤
          (r.headings.toc ++ [r.headings.entry opened]).length := by simp
      have hentries := (List.prefix_of_prefix_length_le hbefore' hbefore hlength).eq_of_length
        (by simp)
      have hentry := List.singleton_inj.1 (List.append_cancel_left hentries)
      exact (Headings.idOf_eq_iff h.ids opened).1 (congrArg Toc.Entry.id hentry)
    intro opened hmem
    rcases List.mem_append.1 hmem with hnow | hlater
    · exact hkeeps opened (by simpa using hnow)
    · rw [h.step_holding hkeeps] at htoc
      exact ih h.after htoc opened hlater

theorem finish_eq_iff (h : Carries more es l r) (options : Toc.Options) :
    (((r.holding l).steps es).finish options).1 = ((r.steps es).finish options).1 ↔
      ∀ opened ∈ r.ended es, opened.KeepsId more := by
  constructor
  · exact fun hpage => h.keepsId_of_toc_eq (congrArg Page.toc hpage)
  · intro hkeeps
    obtain ⟨l', hsteps, hcarries⟩ := h.steps hkeeps
    rw [hsteps]
    simp [finish, holding, hcarries.sectionHtml]

end Carries

/-! ## Documents -/

def headingsOf (f : Forest) : List OpenHeading := ({} : Renderer).ended (lined none f)

/-- No heading of `g` takes a slug for its id that is the base of an id of `f`. -/
def IdsApart (f g : Forest) : Prop :=
  ∀ h ∈ headingsOf g, h.explicitId = none → slug h.text ∉ (headingsOf f).map (·.baseId)

/-- Either `f` has no footnotes, or it does not define any and `g` has none. -/
def FootnotesApart (f g : Forest) : Prop :=
  (∀ e ∈ f.events, e.isOfNote = false) ∨
    (∀ e ∈ f.events, e.isNoteMark = false) ∧ ∀ e ∈ g.events, e.isOfNote = false

section documents

variable {f g : Forest}

theorem render_events (r : Renderer) (options : Toc.Options) (f : Forest) :
    r.render options f.events = (r.steps (lined none f)).finish options := by
  simp [render, lined, Forest.events, Function.comp_def]

theorem finish_of_settles {r : Renderer} (h : Settles {} r) (options : Toc.Options) :
    (r.finish options).2 = ({} : Renderer).holding r.leftover := by
  have hcode := h.code rfl
  have himage := h.image rfl
  have hheading := h.heading rfl
  have hmetadata := h.metadata rfl
  have hsaved := h.saved rfl rfl
  have hquotes := h.quotes
  simp [finish, holding, leftover, hcode, himage, hheading, hmetadata, hsaved, hquotes]

theorem current_of_settles {r : Renderer} (h : Settles {} r) : r.footnotes.current = none := by
  have hpaired : r.footnotes.current.isSome = r.saved.isSome := h.paired rfl
  rw [h.saved rfl rfl] at hpaired
  simpa using hpaired

theorem footnotes_steps (r : Renderer) {es : List (Event × Option Nat)}
    (h : ∀ e ∈ es, e.1.isOfNote = false) : (r.steps es).footnotes = r.footnotes := by
  induction es generalizing r with
  | nil => rfl
  | cons e es ih =>
    rw [List.forall_mem_cons] at h
    have hstep : (r.step e.1 e.2).footnotes = r.footnotes := by
      simpa [leftAfter, leftover, h.1] using congrArg Leftover.footnotes (leftover_step r e.1 e.2)
    exact (ih (r.step e.1 e.2) h.2).trans hstep

theorem page_onTable (options : Toc.Options) (hg : g.fits .blocks = true) (r : Renderer)
    (table : TableCursor) :
    ((r.onTable table).render options g.events).1 = (r.render options g.events).1 := by
  obtain ⟨table', hsteps⟩ := steps_onTable none hg rfl r table
  rw [render_events, render_events, hsteps]
  rfl

/-- Behind `f` there is nothing for `g` but the uses of ids, if their footnotes are apart. -/
theorem carries_of_footnotesApart (hf : f.fits .blocks = true) (hnotes : FootnotesApart f g) :
    let r := ({} : Renderer).steps (lined none f)
    Carries (fun base => ((headingsOf f).map (·.baseId)).count base) (lined none g)
      { ids := r.headings.ids, footnotes := { notes := r.footnotes.notes } } {} := by
  intro r
  refine ⟨rfl, fun base => uses_steps {} (lined none f) base, ?_⟩
  rcases hnotes with hnone | ⟨hmarks, hnone⟩
  · have hfresh : r.footnotes = {} := footnotes_steps {} fun e he => hnone e.1 (mem_lined he)
    exact .inl (by rw [hfresh])
  · exact .inr ⟨sectionHtml_eq_nil_of_not_isNoteMark none hf hmarks,
      fun e he => hnone e.1 (mem_lined he)⟩

/-- A document on a renderer that rendered another one before it is rendered as on a fresh one but
for the counts of the ids and the notes. If the footnotes are apart, then the page is that of a fresh
renderer exactly if no heading takes for its id a slug that was used before. -/
theorem render_after (options : Toc.Options) (hf : f.fits .blocks = true)
    (hg : g.fits .blocks = true) :
    let s := (({} : Renderer).render options f.events).2
    let page := (s.render options g.events).1
    page = ((({} : Renderer).holding
        { ids := s.headings.ids, footnotes := { notes := s.footnotes.notes } }).render
          options g.events).1 ∧
      (FootnotesApart f g →
        (page = (({} : Renderer).render options g.events).1 ↔ IdsApart f g)) := by
  intro s page
  have hsettles := Settles.forest none hf {}
  have hs : s = ({} : Renderer).holding (({} : Renderer).steps (lined none f)).leftover :=
    (congrArg Prod.snd (render_events {} options f)).trans (finish_of_settles hsettles options)
  have hcurrent := current_of_settles hsettles
  generalize hr : ({} : Renderer).steps (lined none f) = r at hs hcurrent
  have hpage : page = ((({} : Renderer).holding
      { ids := r.headings.ids, footnotes := { notes := r.footnotes.notes } }).render
        options g.events).1 := by
    have htable : s = (({} : Renderer).holding
        { ids := r.headings.ids, footnotes := { notes := r.footnotes.notes } }).onTable r.table := by
      rw [hs, leftover, onTable, ← hcurrent]
      rfl
    rw [← page_onTable options hg _ r.table, ← htable]
  have hids : s.headings.ids = r.headings.ids := by rw [hs]; rfl
  have hnotes : s.footnotes.notes = r.footnotes.notes := by rw [hs]; rfl
  rw [hids, hnotes]
  refine ⟨hpage, fun hfootnotes => ?_⟩
  have hcarries := carries_of_footnotesApart (g := g) hf hfootnotes
  rw [hr] at hcarries
  rw [hpage, render_events, render_events, hcarries.finish_eq_iff options]
  simp only [OpenHeading.KeepsId, List.count_eq_zero, IdsApart, headingsOf]

end documents

/-- A heading, and a reference to a footnote that is not defined. -/
def headingAndReference : Forest :=
  .element (.heading 1 none) 0 4 (.leaf (.text "A") 2 .nil) <|
  .element .paragraph 5 10 (.leaf (.footnoteReference "n") 5 .nil) .nil

/-- A heading with another text, and one with the same text that is given its id. -/
def otherHeadings : Forest :=
  .element (.heading 1 none) 0 4 (.leaf (.text "B") 2 .nil) <|
  .element (.heading 1 (some "a")) 5 14 (.leaf (.text "A") 7 .nil) .nil

theorem render_after_otherHeadings :
    headingAndReference.fits .blocks = true ∧ otherHeadings.fits .blocks = true ∧
      FootnotesApart headingAndReference otherHeadings ∧
      ((({} : Renderer).render {} headingAndReference.events).2.render {} otherHeadings.events).1 =
        (({} : Renderer).render {} otherHeadings.events).1 := by
  have hf : headingAndReference.fits .blocks = true := by decide
  have hg : otherHeadings.fits .blocks = true := by decide
  have hnotes : FootnotesApart headingAndReference otherHeadings := .inr ⟨by decide, by decide⟩
  have hids : IdsApart headingAndReference otherHeadings := by
    unfold IdsApart
    decide
  exact ⟨hf, hg, hnotes, ((render_after {} hf hg).2 hnotes).2 hids⟩

/-- The heading of a document that is rendered twice gets another id. -/
theorem render_headingAndReference_twice_ne :
    let second := ((({} : Renderer).render {} headingAndReference.events).2.render {}
      headingAndReference.events).1
    headingAndReference.fits .blocks = true ∧ second.toc = [⟨1, "A", "a-1"⟩] ∧
      second ≠ (({} : Renderer).render {} headingAndReference.events).1 := by
  decide +kernel

end Renderer

end Render

end Galley
