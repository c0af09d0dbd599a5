import Galley.Proofs.Html.VisibleText
import Galley.Proofs.Render.HeldTags
import Galley.Proofs.Render.HeadingLink
import Galley.Proofs.Render.NoteCall

/-!
# The ids of references and notes

A reference and the item of its note have ids with the number of the note, and headings have ids of
their own. How often an id of this form stands on a page is told by the document: once for each
reference to the note, once for its item, and once for each heading with this id
(`noteIds_renderLocated`), but for what is dropped. So the ids of a page on which nothing is dropped
differ exactly if no note is referenced twice and no heading has the id of a note.
-/

namespace Galley.Html

def Tag.hasId (id : Text) (t : Tag) : Bool := t.attributes.contains ⟨"id", some id⟩

theorem Tag.hasId_of_attributes {t : Tag} (h : ∀ a ∈ t.attributes, a.key ≠ "id") (id : Text) :
    t.hasId id = false := by
  rw [hasId, List.contains_eq_mem, decide_eq_false_iff_not]
  exact fun hmem => h _ hmem rfl

theorem Tag.hasId_start {name value : Text} {attributes : List Attribute}
    (h : ∀ a ∈ attributes, a.key ≠ "id") (id : Text) :
    (Tag.start name (⟨"id", some value⟩ :: attributes)).hasId id = decide (value = id) := by
  have hrest : ⟨"id", some id⟩ ∉ attributes := fun hmem => h _ hmem rfl
  rw [hasId, List.contains_eq_mem, decide_eq_decide, List.mem_cons, or_iff_left hrest]
  constructor
  · exact fun heq => (Option.some.inj (Attribute.mk.inj heq).2).symm
  · rintro rfl
    rfl

theorem escape_injective : Function.Injective escape :=
  Function.LeftInverse.injective decode_escape

theorem escape_ofNat (n : Nat) : escape (Text.ofNat n) = Text.ofNat n := by
  refine escape_of_forall fun c hc => ?_
  have hdigit : c.isDigit = true := List.all_eq_true.1 (Text.all_isDigit_ofNat n) c hc
  have hne : ∀ d : Char, d.isDigit = false → c ≠ d := by
    rintro d hd rfl
    rw [hd] at hdigit
    cases hdigit
  rw [escapeChar, if_neg (hne _ (by decide)), if_neg (hne _ (by decide)), if_neg (hne _ (by decide)),
    if_neg (hne _ (by decide)), if_neg (hne _ (by decide))]

end Galley.Html

namespace Galley.Markdown

def Event.referredLabel? : Event → Option Text
  | .footnoteReference label => some label
  | _ => none

def referenceCount (events : List Event) (n : Nat) : Nat :=
  (events.filterMap (·.referredLabel?)).countP (noteNumber events · = n)

def isDefined (events : List Event) (n : Nat) : Bool :=
  (events.filterMap (·.definedLabel?)).any (noteNumber events · = n)

end Galley.Markdown

namespace Galley.Render

open Html (countAllTags countTags countTags_append countTags_nil countTags_of_tags? escape tags?)
open Markdown (Event Forest isDefined noteLabels noteNumber placeAfter? referenceCount)

namespace Footnotes

def referenceId (n : Nat) : Text := "fnref-" ++ Text.ofNat n

def itemId (n : Nat) : Text := "fn-" ++ Text.ofNat n

theorem referenceId_inj {m n : Nat} : referenceId m = referenceId n ↔ m = n :=
  ⟨fun h => Text.ofNat_inj (List.append_cancel_left h), congrArg _⟩

theorem itemId_inj {m n : Nat} : itemId m = itemId n ↔ m = n :=
  ⟨fun h => Text.ofNat_inj (List.append_cancel_left h), congrArg _⟩

theorem itemId_ne_referenceId (m n : Nat) : itemId m ≠ referenceId n := by
  intro h
  have hthird := congrArg (·[2]?) h
  exact absurd (Option.some.inj hthird) (by decide)

theorem escape_referenceId (n : Nat) : escape (referenceId n) = referenceId n := by
  have hstart : escape "fnref-" = "fnref-" := by decide
  exact (Html.escape_append _ _).trans (congrArg₂ (· ++ ·) hstart (Html.escape_ofNat n))

theorem escape_itemId (n : Nat) : escape (itemId n) = itemId n := by
  have hstart : escape "fn-" = "fn-" := by decide
  exact (Html.escape_append _ _).trans (congrArg₂ (· ++ ·) hstart (Html.escape_ofNat n))

theorem countP_referenceTags (id : Text) (n : Nat) :
    (referenceTags n).countP (·.hasId id) = if referenceId n = id then 1 else 0 := by
  have hsup : (supTag n).hasId id = decide (referenceId n = id) :=
    Html.Tag.hasId_start (fun _ ha => absurd ha List.not_mem_nil) id
  have hlink : (referenceTag n).hasId id = false :=
    Html.Tag.hasId_of_attributes (by simp) id
  have hstop : ∀ name, (Html.Tag.stop name).hasId id = false := fun _ => rfl
  simp [referenceTags, List.countP_cons, hsup, hlink, hstop]

theorem countP_itemTag (id : Text) (n : Nat) :
    [itemTag n].countP (·.hasId id) = if itemId n = id then 1 else 0 := by
  have hitem : (itemTag n).hasId id = decide (itemId n = id) :=
    Html.Tag.hasId_start (fun _ ha => absurd ha List.not_mem_nil) id
  simp [List.countP_cons, hitem]

end Footnotes

namespace Renderer

/-! ## New ids -/

def entriesWithId (id : Text) (r : Renderer) : Nat := r.headings.toc.countP (escape ·.id = id)

def referencesWithId (id : Text) (r : Renderer) : Event → Nat
  | .footnoteReference label =>
    if Footnotes.referenceId ((r.footnotes.refer label).number label) = id then 1 else 0
  | _ => 0

theorem ordinary_ne_id : Ordinary fun a => a.key ≠ "id" where
  keyed := fun key hkey value => by
    show key ≠ "id"
    revert key
    decide
  classed := fun _ _ => by
    show ("class" : Text) ≠ "id"
    decide

theorem countP_tagsOf (id : Text) (r : Renderer) (line : Option Nat) (e : Event) :
    (r.tagsOf line e).countP (·.hasId id) = r.referencesWithId id e := by
  by_cases hreference : ∃ label, e = .footnoteReference label
  · obtain ⟨label, rfl⟩ := hreference
    exact Footnotes.countP_referenceTags id _
  · have hne : ∀ label, e ≠ .footnoteReference label := fun label h => hreference ⟨label, h⟩
    have hnone : r.referencesWithId id e = 0 := by
      unfold referencesWithId
      split
      · exact absurd rfl (hne _)
      · rfl
    rw [hnone, List.countP_eq_zero]
    intro t ht
    rw [Html.Tag.hasId_of_attributes (ordinary_ne_id.tagsOf r hne (fun _ _ _ => by
      show ("href" : Text) ≠ "id"
      decide) line t ht) id]
    exact Bool.noConfusion

theorem countP_headingTags (id : Text) (heading : Heading) :
    [Html.Tag.start (headingName heading.level) (headingAttributes heading),
      .stop (headingName heading.level)].countP (·.hasId id) = if escape heading.id = id then 1 else 0 := by
  have hline : ∀ a ∈ Html.lineAttributes heading.line, a.key ≠ "id" :=
    ordinary_ne_id.line heading.line
  have hstart : (Html.Tag.start (headingName heading.level) (headingAttributes heading)).hasId id =
      decide (escape heading.id = id) := Html.Tag.hasId_start hline id
  have hstop : (Html.Tag.stop (headingName heading.level)).hasId id = false := rfl
  simp [List.countP_cons, hstart, hstop]

theorem toc_step_of_not_isHeadingMark (r : Renderer) {e : Event} (he : e.isHeadingMark = false)
    (line : Option Nat) : (r.step e line).headings.toc = r.headings.toc :=
  congrArg Prod.fst (frame_step r he line)

/-- A new id is that of a reference or that of a heading, which leaves an entry with it. -/
theorem countP_newTags (id : Text) (r : Renderer) (line : Option Nat) (e : Event) :
    (r.newTags line e).countP (·.hasId id) + r.entriesWithId id =
      r.referencesWithId id e + (r.step e line).entriesWithId id := by
  cases he : e.isHeadingMark with
  | false =>
    rw [newTags_of_not_isHeadingMark he, countP_tagsOf, entriesWithId, entriesWithId,
      toc_step_of_not_isHeadingMark r he]
  | true =>
    unfold Event.isHeadingMark at he
    split at he
    · rfl
    · show (r.newTags line (.stop (.heading _))).countP _ + _ = 0 + r.endHeading.entriesWithId id
      cases hopened : r.headings.opened with
      | none =>
        rw [endHeading_of_none hopened, newTags, hopened]
        rfl
      | some opened =>
        rw [endHeading_of_some hopened, newTags, hopened]
        show _ = 0 + (r.headings.toc ++ [r.headings.entry opened]).countP (escape ·.id = id)
        rw [countP_headingTags, List.countP_append, List.countP_singleton, Nat.zero_add, Nat.add_comm]
        refine congrArg (r.entriesWithId id + ·) ?_
        by_cases hid : escape (Headings.idOf r.headings.ids opened) = id
        · simp [Headings.completed, Headings.entry, hid]
        · simp [Headings.completed, Headings.entry, hid]
    · cases he

theorem total_newTags (id : Text) {r : Renderer} (es : List (Event × Option Nat)) :
    total (fun r line e => (r.newTags line e).countP (·.hasId id)) r es + r.entriesWithId id =
      total (fun r _ e => r.referencesWithId id e) r es + (r.steps es).entriesWithId id := by
  induction es generalizing r with
  | nil => rfl
  | cons first es ih =>
    obtain ⟨e, line⟩ := first
    have hstep := countP_newTags id r line e
    have hrest := ih (r := r.step e line)
    show ((r.newTags line e).countP _ + total _ _ es) + r.entriesWithId id =
      (r.referencesWithId id e + total _ _ es) + ((r.step e line).steps es).entriesWithId id
    omega

theorem total_referencesWithId (id : Text) (es : List (Event × Option Nat)) :
    total (fun r _ e => r.referencesWithId id e) {} es =
      ((es.map (·.1)).filterMap (·.referredLabel?)).countP
        (fun label => Footnotes.referenceId (noteNumber (es.map (·.1)) label) = id) := by
  rw [List.countP_filterMap]
  refine total_eq_countP fun es₁ e line es₂ heq => ?_
  cases e with
  | footnoteReference label =>
    subst heq
    rw [List.map_append, List.map_cons]
    show (if Footnotes.referenceId (Footnotes.number _ label) = id then 1 else 0) = _
    rw [number_refer_steps es₁ label (es₂.map (·.1))]
    simp [Event.referredLabel?]
  | _ => rfl

end Renderer

/-! ## Items -/

namespace Footnotes

/-- How many of the notes with a text have the id, if the first note has the number `n`. -/
def itemsWithId (id : Text) (n : Nat) (notes : List Note) : Nat :=
  (notes.zipIdx n).countP fun note => note.1.body.isSome && itemId note.2 = id

section items

variable {id u : Text} {notes : List Note}

theorem countTags_of_any (h : (tags? u).any (·.all fun t => t.attributes.all (·.key ≠ "id")) = true)
    (id : Text) : (tags? u).isSome = true ∧ countTags (·.hasId id) u = 0 := by
  obtain ⟨ts, hts, hall⟩ := (Option.any_eq_true _ _).1 h
  refine ⟨by rw [hts]; rfl, ?_⟩
  rw [countTags_of_tags? hts, List.countP_eq_zero]
  intro t ht
  have hkeys : ∀ a ∈ t.attributes, a.key ≠ "id" := by
    simpa using List.all_eq_true.1 hall t ht
  rw [Html.Tag.hasId_of_attributes hkeys]
  exact Bool.noConfusion

theorem countTags_backReference (id : Text) (n : Nat) :
    (tags? (backReference n)).isSome = true ∧ countTags (·.hasId id) (backReference n) = 0 := by
  have htags := tags?_backReference n
  refine ⟨by rw [htags]; rfl, ?_⟩
  have hback : (backTag n).hasId id = false := Html.Tag.hasId_of_attributes (by simp) id
  have hstop : (Html.Tag.stop "a").hasId id = false := rfl
  rw [countTags_of_tags? htags, List.countP_cons, List.countP_singleton, hback, hstop]
  rfl

theorem countTags_item (id : Text) {note : Note} {body : Text} (hnote : note.body = some body)
    (hbody : (tags? body).isSome = true) (n : Nat) :
    (tags? (Note.item n note)).isSome = true ∧ countTags (·.hasId id) (Note.item n note) =
      countTags (·.hasId id) body + if itemId n = id then 1 else 0 := by
  obtain ⟨hback, hnoBack⟩ : (tags? (if note.referenced then backReference n else [])).isSome = true ∧
      countTags (·.hasId id) (if note.referenced then backReference n else []) = 0 := by
    split
    · exact countTags_backReference id n
    · exact ⟨rfl, rfl⟩
  obtain ⟨hstop, hnoStop⟩ := countTags_of_any (u := "</li>\n") (by decide) id
  have hstart := tags?_itemStart n
  have hreads : (tags? ("<li id=\"fn-" ++ Text.ofNat n ++ "\">\n")).isSome = true := by
    rw [hstart]
    rfl
  have hopened := Html.isSome_tags?_append hreads hbody
  have hclosed := Html.isSome_tags?_append hopened hback
  rw [Note.item, hnote]
  refine ⟨Html.isSome_tags?_append hclosed hstop, ?_⟩
  show countTags _ (_ ++ body ++ _ ++ _) = _
  rw [countTags_append hclosed hstop, countTags_append hopened hback, countTags_append hreads hbody,
    hnoBack, hnoStop, countTags_of_tags? hstart, countP_itemTag]
  omega

theorem itemsWithId_cons (id : Text) (n : Nat) (note : Note) (notes : List Note) :
    itemsWithId id n (note :: notes) =
      itemsWithId id (n + 1) notes + if note.body.isSome && itemId n = id then 1 else 0 := by
  rw [itemsWithId, List.zipIdx_cons, List.countP_cons]
  rfl

theorem countTags_items (id : Text) (n : Nat)
    (h : ∀ body ∈ notes.filterMap (·.body), (tags? body).isSome = true) :
    (tags? (items n notes)).isSome = true ∧ countTags (·.hasId id) (items n notes) =
      countAllTags (·.hasId id) (notes.filterMap (·.body)) + itemsWithId id n notes := by
  induction notes generalizing n with
  | nil => exact ⟨rfl, rfl⟩
  | cons note notes ih =>
    rw [items, itemsWithId_cons]
    cases hbody : note.body with
    | none =>
      simp only [List.filterMap_cons, hbody] at h ⊢
      have hitem : Note.item n note = [] := by
        rw [Note.item, hbody]
      rw [hitem]
      exact ih (n + 1) h
    | some body =>
      simp only [List.filterMap_cons, hbody, List.forall_mem_cons] at h ⊢
      obtain ⟨hitem, hcount⟩ := countTags_item id hbody h.1 n
      obtain ⟨hrest, hcounts⟩ := ih (n + 1) h.2
      refine ⟨Html.isSome_tags?_append hitem hrest, ?_⟩
      rw [countTags_append hitem hrest, hcount, hcounts, countAllTags]
      simp only [Option.isSome_some, Bool.true_and, decide_eq_true_eq]
      omega

theorem countTags_sectionHtml (id : Text) {fs : Footnotes}
    (h : ∀ body ∈ fs.bodies, (tags? body).isSome = true) :
    (tags? fs.sectionHtml).isSome = true ∧ countTags (·.hasId id) fs.sectionHtml =
      countAllTags (·.hasId id) fs.bodies + itemsWithId id 1 fs.notes := by
  obtain ⟨hitems, hcount⟩ := countTags_items id 1 h
  unfold sectionHtml
  split
  · next hnone =>
    have hnotes : ∀ note ∈ fs.notes, note.body = none := by simpa using hnone
    have hbodies : fs.bodies = [] := by
      rw [bodies, List.filterMap_eq_nil_iff]
      exact hnotes
    have hitems : itemsWithId id 1 fs.notes = 0 := by
      rw [itemsWithId, List.countP_eq_zero]
      rintro ⟨note, k⟩ hmem
      rw [hnotes note (List.fst_mem_of_mem_zipIdx hmem)]
      exact Bool.noConfusion
    rw [hbodies, hitems]
    exact ⟨rfl, rfl⟩
  · obtain ⟨hstart, hnoStart⟩ := countTags_of_any
      (u := "<div class=\"footnotes\">\n<hr class=\"footnotes-sep\" />\n<ol>\n") (by decide) id
    obtain ⟨hstop, hnoStop⟩ := countTags_of_any (u := "</ol>\n</div>\n") (by decide) id
    have hopened := Html.isSome_tags?_append hstart hitems
    refine ⟨Html.isSome_tags?_append hopened hstop, ?_⟩
    rw [countTags_append hopened hstop, countTags_append hstart hitems, hnoStart, hnoStop, hcount]
    simp [bodies]

end items

/-! ### Items by number -/

section numbers

variable {events : List Event}

theorem itemsWithId_referenceId (k n : Nat) (notes : List Note) :
    itemsWithId (referenceId n) k notes = 0 := by
  rw [itemsWithId, List.countP_eq_zero]
  intro entry _
  simp [itemId_ne_referenceId]

theorem zipIdx_eq_map_idxOf {labels : List Text} (h : labels.Nodup) (k : Nat) :
    labels.zipIdx k = labels.map fun label => (label, labels.idxOf label + k) := by
  refine List.ext_getElem (by simp) fun i hi hi' => ?_
  rw [List.getElem_zipIdx, List.getElem_map, h.idxOf_getElem, Nat.add_comm]

theorem countP_of_unique {labels : List Text} {p : Text → Bool} (h : labels.Nodup)
    (hp : ∀ a ∈ labels, ∀ b ∈ labels, p a = true → p b = true → a = b) :
    labels.countP p = if labels.any p then 1 else 0 := by
  split
  · next hany =>
    obtain ⟨a, ha, hpa⟩ := List.any_eq_true.1 hany
    have hsame : labels.countP p = labels.countP (· == a) := by
      refine List.countP_congr fun b hb => ?_
      rw [beq_iff_eq]
      exact ⟨fun hpb => hp b hb a ha hpb hpa, fun heq => heq ▸ hpa⟩
    rw [hsame]
    exact List.count_eq_one_of_mem h ha
  · next hnone =>
    rw [List.countP_eq_zero]
    exact fun a ha hpa => hnone (List.any_eq_true.2 ⟨a, ha, hpa⟩)

theorem noteNumber_inj {a b : Text} (ha : a ∈ noteLabels events)
    (h : noteNumber events a = noteNumber events b) : a = b :=
  List.idxOf_inj ha |>.1 (Nat.succ.inj h)

theorem itemsWithId_itemId (events : List Event) (note : Text → Note) (n : Nat) :
    itemsWithId (itemId n) 1 ((noteLabels events).map note) =
      if (noteLabels events).any fun label => (note label).body.isSome && noteNumber events label = n
      then 1 else 0 := by
  have hnodup := Markdown.nodup_noteLabels events
  rw [← countP_of_unique hnodup, itemsWithId, List.zipIdx_map, List.countP_map,
    zipIdx_eq_map_idxOf hnodup, List.countP_map]
  · refine List.countP_congr fun label _ => ?_
    show ((note label).body.isSome && decide (itemId (noteNumber events label) = itemId n)) = true ↔ _
    simp only [itemId_inj]
  · intro a ha b _ hpa hpb
    simp only [Bool.and_eq_true, decide_eq_true_eq] at hpa hpb
    exact noteNumber_inj ha (hpa.2.trans hpb.2.symm)

theorem isDefined_iff {n : Nat} : isDefined events n = true ↔
    ∃ label, .start (.footnoteDefinition label) ∈ events ∧ noteNumber events label = n := by
  simp only [isDefined, List.any_eq_true, List.mem_filterMap, decide_eq_true_eq]
  constructor
  · rintro ⟨label, ⟨e, he, hlabel⟩, hnumber⟩
    unfold Event.definedLabel? at hlabel
    split at hlabel
    · cases hlabel
      exact ⟨label, he, hnumber⟩
    · cases hlabel
  · rintro ⟨label, he, hnumber⟩
    exact ⟨label, ⟨_, he, rfl⟩, hnumber⟩

section bodies

variable {note : Text → Note}

theorem isDefined_of_any {n : Nat}
    (hbody : ∀ label, (note label).body.isSome = true → .start (.footnoteDefinition label) ∈ events)
    (h : ((noteLabels events).any fun label =>
      (note label).body.isSome && noteNumber events label = n) = true) : isDefined events n = true := by
  obtain ⟨label, -, hlabel⟩ := List.any_eq_true.1 h
  rw [Bool.and_eq_true, decide_eq_true_eq] at hlabel
  exact isDefined_iff.2 ⟨label, hbody label hlabel.1, hlabel.2⟩

theorem itemsWithId_itemId_le (n : Nat)
    (hbody : ∀ label, (note label).body.isSome = true → .start (.footnoteDefinition label) ∈ events) :
    itemsWithId (itemId n) 1 ((noteLabels events).map note) ≤ if isDefined events n then 1 else 0 := by
  rw [itemsWithId_itemId]
  split
  · next hany => exact Nat.le_of_eq (if_pos (isDefined_of_any hbody hany)).symm
  · exact Nat.zero_le _

theorem itemsWithId_itemId_eq (n : Nat) (hbody : ∀ label, (note label).body.isSome = true ↔
      .start (.footnoteDefinition label) ∈ events) :
    itemsWithId (itemId n) 1 ((noteLabels events).map note) = if isDefined events n then 1 else 0 := by
  rw [itemsWithId_itemId]
  refine if_congr ⟨isDefined_of_any fun label => (hbody label).1, fun hdefined => ?_⟩ rfl rfl
  obtain ⟨label, hstart, hnumber⟩ := isDefined_iff.1 hdefined
  refine List.any_eq_true.2 ⟨label, Markdown.mem_noteLabels hstart rfl, ?_⟩
  rw [Bool.and_eq_true, decide_eq_true_eq]
  exact ⟨(hbody label).2 hstart, hnumber⟩

end bodies

end numbers

end Footnotes

namespace Renderer

/-! ## Pages -/

section page

variable {es : List (Event × Option Nat)}

/-- How often the id stands in texts that were dropped or are still held aside. -/
def missing (id : Text) (es : List (Event × Option Nat)) : Nat :=
  let r := ({} : Renderer).steps es
  countTags (·.hasId id) (r.saved.getD []) + countTags (·.hasId id) r.headingText +
    total (fun r _ e => countTags (·.hasId id) ((r.dropped? e).getD [])) {} es

/-- An id stands on the page as often as a reference, a heading or an item with it was written, but for
what is missing. -/
theorem countTags_page (id : Text) {r : Renderer} (hr : ({} : Renderer).steps es = r)
    (hraw : ∀ e ∈ es, e.1.isRaw = false) :
    (tags? (r.output ++ r.footnotes.sectionHtml)).isSome = true ∧
      countTags (·.hasId id) (r.output ++ r.footnotes.sectionHtml) + missing id es =
        ((es.map (·.1)).filterMap (·.referredLabel?)).countP
            (fun label => Footnotes.referenceId (noteNumber (es.map (·.1)) label) = id) +
          r.entriesWithId id + Footnotes.itemsWithId id 1 r.footnotes.notes := by
  subst hr
  obtain ⟨hlegible, hheld⟩ := held_steps (q := (·.hasId id)) legible_start hraw
  obtain ⟨hsection, hcount⟩ := Footnotes.countTags_sectionHtml id hlegible.bodies
  have hnew := total_newTags id (r := {}) es
  have hstart : held (·.hasId id) {} = 0 ∧ entriesWithId id {} = 0 := ⟨rfl, rfl⟩
  rw [total_referencesWithId, hstart.2] at hnew
  rw [hstart.1, held] at hheld
  refine ⟨Html.isSome_tags?_append hlegible.output hsection, ?_⟩
  rw [countTags_append hlegible.output hsection, hcount, missing]
  omega

theorem entriesWithId_of_escape {id : Text} (h : escape id = id) (r : Renderer) :
    r.entriesWithId id = r.headings.toc.countP (·.id = id) := by
  refine List.countP_congr fun entry _ => ?_
  rw [decide_eq_true_eq, decide_eq_true_eq]
  refine ⟨fun hid => Html.escape_injective (hid.trans h.symm), fun hid => ?_⟩
  rw [hid, h]

theorem countTags_referenceId {r : Renderer} (hr : ({} : Renderer).steps es = r)
    (hraw : ∀ e ∈ es, e.1.isRaw = false) (n : Nat) :
    countTags (·.hasId (Footnotes.referenceId n)) (r.output ++ r.footnotes.sectionHtml) +
        missing (Footnotes.referenceId n) es =
      referenceCount (es.map (·.1)) n + r.headings.toc.countP (·.id = Footnotes.referenceId n) := by
  have hpage := (countTags_page (Footnotes.referenceId n) hr hraw).2
  rw [Footnotes.itemsWithId_referenceId, entriesWithId_of_escape (Footnotes.escape_referenceId n)] at hpage
  simp only [Footnotes.referenceId_inj] at hpage
  exact hpage

theorem countTags_itemId {r : Renderer} (hr : ({} : Renderer).steps es = r)
    (hraw : ∀ e ∈ es, e.1.isRaw = false) (n : Nat) :
    countTags (·.hasId (Footnotes.itemId n)) (r.output ++ r.footnotes.sectionHtml) +
        missing (Footnotes.itemId n) es =
      Footnotes.itemsWithId (Footnotes.itemId n) 1 r.footnotes.notes +
        r.headings.toc.countP (·.id = Footnotes.itemId n) := by
  have hpage := (countTags_page (Footnotes.itemId n) hr hraw).2
  have hnone : ((es.map (·.1)).filterMap (·.referredLabel?)).countP (fun label =>
      Footnotes.referenceId (noteNumber (es.map (·.1)) label) = Footnotes.itemId n) = 0 := by
    rw [List.countP_eq_zero]
    intro label _
    simp [(Footnotes.itemId_ne_referenceId n _).symm]
  rw [hnone, entriesWithId_of_escape (Footnotes.escape_itemId n)] at hpage
  omega

end page

end Renderer

/-! ## Documents in which nothing is dropped -/

theorem InTurn.concat_cases {strict : List Text} {opened : Option Text}
    {es : List (Event × Option Nat)} {e : Event} {line : Option Nat}
    (h : InTurn strict (es ++ [(e, line)]) opened) :
    (∃ label, e = .start (.footnoteDefinition label)) ∧ InTurn strict es none ∨
      (∃ label, e = .stop .footnoteDefinition ∧ InTurn strict es (some label)) ∨
      e.isNoteMark = false := by
  generalize hall : es ++ [(e, line)] = all at h
  cases h with
  | nil => simp at hall
  | start h label _ =>
    obtain ⟨rfl, heq⟩ := List.append_inj' hall rfl
    cases heq
    exact .inl ⟨⟨label, rfl⟩, h⟩
  | stop h _ _ =>
    obtain ⟨rfl, heq⟩ := List.append_inj' hall rfl
    cases heq
    exact .inr (.inl ⟨_, rfl, h⟩)
  | other h he _ =>
    obtain ⟨rfl, heq⟩ := List.append_inj' hall rfl
    cases heq
    exact .inr (.inr he)

namespace Renderer

section page

variable {es : List (Event × Option Nat)}

theorem headingText_of_isOpen {r : Renderer} (h : r.headings.isOpen = false) : r.headingText = [] := by
  have hnone : r.headings.opened = none := by simpa [Headings.isOpen] using h
  rw [headingText, Headings.openHtml, hnone]
  rfl

theorem body?_of_captured {r : Renderer} {ps : List Piece} {label : Text}
    (h : Captured es (some label) r ps) : r.footnotes.body? label = none := by
  rw [Footnotes.body?, h.notes, List.find?_map]
  cases hfind : (noteLabels (es.map (·.1))).find? _ with
  | none => rfl
  | some other =>
    have hother := List.find?_some hfind
    obtain rfl : other = label := of_decide_eq_true hother
    simp [noteOf]

/-- A step drops nothing if definitions start and end in turn, its label is not defined yet, and no
heading is open where one starts. -/
theorem getD_dropped? {es : List (Event × Option Nat)} {e : Event} {line : Option Nat}
    {opened : Option Text} {p q : Markdown.Place} (h : InTurn [] (es ++ [(e, line)]) opened)
    (hdistinct : ((es.map (·.1)).filterMap (·.definedLabel?)).Nodup)
    (hbefore : placeAfter? (es.map (·.1)) .page = some p) (hplace : p.after? e = some q) :
    ((({} : Renderer).steps es).dropped? e).getD [] = [] := by
  have hopen := isOpen_steps (r := {}) hbefore rfl
  cases e with
  | start tag =>
    cases tag with
    | heading _ _ =>
      obtain rfl : p = .page := by cases p <;> first | rfl | cases hplace
      exact headingText_of_isOpen hopen
    | footnoteDefinition label =>
      rcases h.concat_cases with ⟨-, hturn⟩ | ⟨_, heq, -⟩ | hmark
      · have hsaved : (({} : Renderer).steps es).saved = none := by
          simpa using hturn.current_and_saved.2
        show (({} : Renderer).steps es).saved.getD [] = []
        rw [hsaved]
        rfl
      · cases heq
      · cases hmark
    | _ => rfl
  | stop tag =>
    cases tag with
    | footnoteDefinition =>
      rcases h.concat_cases with ⟨⟨_, heq⟩, -⟩ | ⟨label, -, hturn⟩ | hmark
      · cases heq
      · show ((({} : Renderer).steps es).footnotes.current.bind
          (({} : Renderer).steps es).footnotes.body?).getD [] = []
        rw [hturn.current_and_saved.1, Option.bind_some, body?_of_captured (hturn.captured hdistinct)]
        rfl
      · cases hmark
    | _ => rfl
  | _ => rfl

/-- Where definitions start and end in turn and each label is defined once, nothing is missing. -/
theorem missing_eq_zero (id : Text) (h : InTurn [] es none)
    (hdistinct : ((es.map (·.1)).filterMap (·.definedLabel?)).Nodup)
    (hplace : placeAfter? (es.map (·.1)) .page = some .page) : missing id es = 0 := by
  have hdropped : total (fun r _ e => countTags (·.hasId id) ((r.dropped? e).getD [])) {} es =
      (es.map (·.1)).countP fun _ => false := by
    refine total_eq_countP fun es₁ e line es₂ hes => ?_
    subst hes
    have hsplit : es₁ ++ (e, line) :: es₂ = es₁ ++ [(e, line)] ++ es₂ := by simp
    rw [hsplit] at h
    obtain ⟨opened, hturn⟩ := h.of_append
    rw [List.map_append, List.filterMap_append] at hdistinct
    rw [List.map_append, Markdown.placeAfter?_append] at hplace
    obtain ⟨p, hbefore, hbehind⟩ := Option.bind_eq_some_iff.1 hplace
    obtain ⟨q, hafter, -⟩ := Option.bind_eq_some_iff.1 hbehind
    rw [getD_dropped? hturn (List.nodup_append.1 hdistinct).1 hbefore hafter]
    rfl
  have hsaved : (({} : Renderer).steps es).saved = none := by simpa using h.current_and_saved.2
  have hclosed := headingText_of_isOpen (isOpen_steps (r := {}) hplace rfl)
  rw [missing, hdropped, hsaved, hclosed, List.countP_eq_zero.2 fun _ _ => Bool.noConfusion]
  rfl

theorem itemsWithId_inTurn (n : Nat) (h : InTurn [] es none)
    (hdistinct : ((es.map (·.1)).filterMap (·.definedLabel?)).Nodup) :
    Footnotes.itemsWithId (Footnotes.itemId n) 1 (({} : Renderer).steps es).footnotes.notes =
      if isDefined (es.map (·.1)) n then 1 else 0 := by
  rw [(h.captured hdistinct).notes]
  refine Footnotes.itemsWithId_itemId_eq n fun label => ?_
  by_cases hstart : .start (.footnoteDefinition label) ∈ es.map (·.1)
  · simp [noteOf, hstart]
  · simp [noteOf, hstart]

end page

/-- How often the ids of a note stand on a page. The first one stands there at most once for each
reference to the note and each heading with this id; the second one at most once for the definition of
the note, and once for each heading with this id. If no definition stands inside another one and no
label is defined twice, they stand there exactly so often. -/
theorem noteIds_renderLocated (options : Toc.Options) (lineOf? : Option (Nat → Nat)) {f : Forest}
    (hfits : f.fits .blocks = true) (hraw : ∀ e ∈ f.events, e.isRaw = false) :
    let page := (({} : Renderer).renderLocated options lineOf? f.located).1
    ∃ ts, tags? page.html = some ts ∧
      (∀ n, ts.countP (·.hasId (Footnotes.referenceId n)) ≤
        referenceCount f.events n + page.toc.countP (·.id = Footnotes.referenceId n)) ∧
      (∀ n, ts.countP (·.hasId (Footnotes.itemId n)) ≤
        (if isDefined f.events n then 1 else 0) + page.toc.countP (·.id = Footnotes.itemId n)) ∧
      (f.notesApart false = true → (f.events.filterMap (·.definedLabel?)).Nodup → ∀ n,
        ts.countP (·.hasId (Footnotes.referenceId n)) =
          referenceCount f.events n + page.toc.countP (·.id = Footnotes.referenceId n) ∧
        ts.countP (·.hasId (Footnotes.itemId n)) =
          (if isDefined f.events n then 1 else 0) + page.toc.countP (·.id = Footnotes.itemId n)) := by
  intro page
  have hevents := map_fst_lined lineOf? f
  have hplace := Forest.placeAfter?_events hfits (p := .page) rfl
  have hrawLined : ∀ e ∈ lined lineOf? f, e.1.isRaw = false := fun e he => hraw e.1 (mem_lined he)
  have hhtml : page.html = _ := html_renderLocated options lineOf? hraw
  have htoc : page.toc = (({} : Renderer).steps (lined lineOf? f)).headings.toc := rfl
  obtain ⟨ts, hts⟩ := Option.isSome_iff_exists.1 (countTags_page [] rfl hrawLined).1
  have hreference := countTags_referenceId rfl hrawLined
  have hitem := countTags_itemId rfl hrawLined
  obtain ⟨note, hnotes, -, hbody⟩ := exists_notes_steps (lined lineOf? f)
  simp only [countTags_of_tags? hts] at hreference hitem
  rw [htoc]
  rw [← hevents] at hplace ⊢
  refine ⟨ts, hhtml ▸ hts, fun n => ?_, fun n => ?_, fun hapart hdistinct n => ?_⟩
  · rw [← hreference n]
    exact Nat.le_add_right _ _
  · have hone := Footnotes.itemsWithId_itemId_le n hbody
    have hcount := hitem n
    rw [← hnotes] at hone
    omega
  · have hturn := inTurn_document lineOf? hfits hapart
    have hnothing := fun id => missing_eq_zero id hturn hdistinct hplace
    have hitems := itemsWithId_inTurn n hturn hdistinct
    have hcount := hreference n
    have hcount' := hitem n
    rw [hnothing, Nat.add_zero] at hcount hcount'
    rw [hitems] at hcount'
    exact ⟨hcount, hcount'⟩

/-- Two notes, one of which is referred to twice, the second time from the other note. -/
def sharedNote : Forest :=
  .element .paragraph 0 9
    (.leaf (.footnoteReference "a") 0 <| .leaf (.footnoteReference "b") 4 .nil) <|
  .element (.footnoteDefinition "b") 10 20
    (.element .paragraph 15 20 (.leaf (.footnoteReference "a") 15 .nil) .nil) <|
  .element (.footnoteDefinition "a") 21 30
    (.element .paragraph 26 30 (.leaf (.text "A") 26 .nil) .nil) .nil

theorem noteIds_sharedNote :
    sharedNote.fits .blocks = true ∧ (∀ e ∈ sharedNote.events, e.isRaw = false) ∧
      sharedNote.notesApart false = true ∧
      (sharedNote.events.filterMap (·.definedLabel?)).Nodup ∧
      ∃ ts, tags? (({} : Renderer).renderLocated {} none sharedNote.located).1.html = some ts ∧
        ts.countP (·.hasId (Footnotes.referenceId 2)) = 1 ∧
        ts.countP (·.hasId (Footnotes.itemId 1)) = 1 := by
  have hfits : sharedNote.fits .blocks = true := by decide
  have hraw : ∀ e ∈ sharedNote.events, e.isRaw = false := by decide
  have hapart : sharedNote.notesApart false = true := by decide
  have hdistinct : (sharedNote.events.filterMap (·.definedLabel?)).Nodup := by decide
  obtain ⟨ts, hts, -, -, hcount⟩ := noteIds_renderLocated {} none hfits hraw
  have htoc : (({} : Renderer).renderLocated {} none sharedNote.located).1.toc = [] := by decide
  have hreferences : referenceCount sharedNote.events 2 = 1 := by decide
  have hdefined : isDefined sharedNote.events 1 = true := by decide
  have hsecond := (hcount hapart hdistinct 2).1
  have hfirst := (hcount hapart hdistinct 1).2
  rw [htoc, hreferences] at hsecond
  rw [htoc, hdefined] at hfirst
  exact ⟨hfits, hraw, hapart, hdistinct, ts, hts, hsecond, hfirst⟩

/-- A note that is referred to twice, and a heading with the id of its item. -/
def repeatedIds : Forest :=
  .element (.heading 1 none) 0 5 (.leaf (.text "fn 1") 2 .nil) <|
  .element .paragraph 6 15
    (.leaf (.footnoteReference "a") 6 <| .leaf (.footnoteReference "a") 10 .nil) <|
  .element (.footnoteDefinition "a") 16 25
    (.element .paragraph 21 25 (.leaf (.text "A") 21 .nil) .nil) .nil

theorem countP_repeatedIds :
    repeatedIds.fits .blocks = true ∧ (∀ e ∈ repeatedIds.events, e.isRaw = false) ∧
      ∃ ts, tags? (({} : Renderer).renderLocated {} none repeatedIds.located).1.html = some ts ∧
        ts.countP (·.hasId (Footnotes.referenceId 1)) = 2 ∧
        ts.countP (·.hasId (Footnotes.itemId 1)) = 2 := by
  refine ⟨by decide, by decide, ?_⟩
  have hcounts : (tags? (({} : Renderer).renderLocated {} none repeatedIds.located).1.html).map
      (fun ts => (ts.countP (·.hasId (Footnotes.referenceId 1)),
        ts.countP (·.hasId (Footnotes.itemId 1)))) = some (2, 2) := by decide +kernel
  obtain ⟨ts, hts, hpair⟩ := Option.map_eq_some_iff.1 hcounts
  obtain ⟨hreferences, hitems⟩ := Prod.mk.inj hpair
  exact ⟨ts, hts, hreferences, hitems⟩

end Renderer

end Galley.Render
