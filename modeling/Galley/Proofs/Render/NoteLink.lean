import Galley.Proofs.Html.Bracket
import Galley.Proofs.Render.NoteTag
import Galley.Proofs.Render.ShownText

/-!
# Links between references and notes

A reference names its note by the place of its label in the order in which labels appear, and the
notes are listed in this order at the end of the page. So the link of a reference leads to the item
with the text of its own definition, and the item leads back if there is a reference
(`noteLinks_renderLocated`).
-/

namespace Galley.Markdown

/-- The number of a footnote: the place of its label in the order in which the labels appear. -/
def noteNumber (events : List Event) (label : Text) : Nat := (noteLabels events).idxOf label + 1

theorem noteNumber_append {events : List Event} {label : Text} (h : label ∈ noteLabels events)
    (events' : List Event) : noteNumber (events ++ events') label = noteNumber events label := by
  have hlabels : noteLabels (events ++ events') = noteLabels events ++
      ((events'.filterMap (·.noteLabel?)).removeAll (events.filterMap (·.noteLabel?))).eraseDups := by
    rw [noteLabels, List.filterMap_append, List.eraseDups_append]
    rfl
  rw [noteNumber, hlabels, List.idxOf_append_of_mem h, noteNumber]

end Galley.Markdown

namespace Galley.Render

open Html (Tagged tags?)
open Footnotes (Between Lists backTag itemTag referenceHtml referenceTag referencedFrom supTag)
open Markdown (Event Forest noteLabels noteNumber openNotes placeAfter?)

/-! ## Numbers -/

theorem Footnotes.number_of_notes {fs : Footnotes} {labels : List Text} {note : Text → Note}
    (h : fs.notes = labels.map note) (hlabel : ∀ l, (note l).label = l) (label : Text) :
    fs.number label = labels.idxOf label + 1 := by
  rw [number, h, List.findIdx_map, List.idxOf]
  simp only [Function.comp_def, hlabel, beq_eq_decide]

section inTurn

variable {strict : List Text} {opened : Option Text} {es es' : List (Event × Option Nat)}
  {e : Event × Option Nat}

theorem InTurn.of_concat (h : InTurn strict (es ++ [e]) opened) : ∃ opened', InTurn strict es opened' := by
  generalize hall : es ++ [e] = all at h
  cases h with
  | nil => simp at hall
  | start h _ _ | stop h _ _ | other h _ _ =>
    obtain ⟨rfl, -⟩ := List.append_inj' hall rfl
    exact ⟨_, h⟩

theorem InTurn.of_append (h : InTurn strict (es ++ es') opened) :
    ∃ opened', InTurn strict es opened' := by
  induction es' using List.reverseRecOn generalizing opened with
  | nil => exact ⟨opened, by rwa [List.append_nil] at h⟩
  | append_singleton es' e ih =>
    rw [← List.append_assoc] at h
    obtain ⟨opened', h'⟩ := h.of_concat
    exact ih h'

theorem InTurn.number_refer {label : Text} {line : Option Nat}
    (h : InTurn strict (es ++ (.footnoteReference label, line) :: es') opened)
    (hdistinct : (((es ++ (.footnoteReference label, line) :: es').map (·.1)).filterMap
      (·.definedLabel?)).Nodup) :
    ((({} : Renderer).steps es).footnotes.refer label).number label =
      noteNumber ((es ++ (.footnoteReference label, line) :: es').map (·.1)) label := by
  have hsplit : es ++ (.footnoteReference label, line) :: es' =
      es ++ [(.footnoteReference label, line)] ++ es' := by simp
  rw [hsplit] at h hdistinct ⊢
  obtain ⟨opened', hbefore⟩ := h.of_append
  rw [List.map_append, List.filterMap_append] at hdistinct
  have hcaptured := hbefore.captured (List.nodup_append.1 hdistinct).1
  have hnotes := hcaptured.notes
  rw [Renderer.steps_concat, Renderer.footnotes_step _ (by simp)] at hnotes
  have hmem : label ∈ noteLabels ((es ++ [(Event.footnoteReference label, line)]).map (·.1)) :=
    Markdown.mem_noteLabels (List.mem_map_of_mem (List.mem_append_right es List.mem_cons_self)) rfl
  -- labels that first appear behind the reference get higher numbers
  rw [List.map_append, Markdown.noteNumber_append hmem]
  exact Footnotes.number_of_notes hnotes (fun _ => rfl) label

end inTurn

def notesOf (es : List (Event × Option Nat)) : List Note :=
  (noteLabels (es.map (·.1))).map (noteOf none (es.map (·.1)) (({} : Renderer).pieces [] es))

theorem mem_referencedFrom_notesOf_iff {es : List (Event × Option Nat)} {n : Nat} :
    n ∈ referencedFrom 1 (notesOf es) ↔ ∃ label, .footnoteReference label ∈ es.map (·.1) ∧
      n = noteNumber (es.map (·.1)) label := by
  unfold notesOf
  generalize es.map (·.1) = events, ({} : Renderer).pieces [] es = ps
  constructor
  · intro hn
    obtain ⟨⟨note, m⟩, hmem, rfl⟩ := List.mem_map.1 hn
    obtain ⟨hzip, href⟩ := List.mem_filter.1 hmem
    obtain ⟨hm, hget⟩ := List.mem_zipIdx_iff_le_and_getElem?_sub.1 hzip
    rw [List.getElem?_map, Option.map_eq_some_iff] at hget
    obtain ⟨label, hlabel, rfl⟩ := hget
    obtain ⟨hlt, hget⟩ := List.getElem?_eq_some_iff.1 hlabel
    have hindex := (Markdown.nodup_noteLabels events).idxOf_getElem (m - 1) hlt
    refine ⟨label, of_decide_eq_true href, ?_⟩
    rw [noteNumber, ← hget, hindex]
    exact (Nat.sub_add_cancel hm).symm
  · rintro ⟨label, href, rfl⟩
    have hmem : label ∈ noteLabels events := Markdown.mem_noteLabels href rfl
    have hzip : (noteOf none events ps label, noteNumber events label) ∈
        ((noteLabels events).map (noteOf none events ps)).zipIdx 1 := by
      rw [List.mem_zipIdx_iff_le_and_getElem?_sub, List.getElem?_map]
      refine ⟨Nat.le_add_left 1 _, ?_⟩
      rw [noteNumber, Nat.add_sub_cancel, List.getElem?_idxOf hmem]
      rfl
    exact List.mem_map.2 ⟨_, List.mem_filter.2 ⟨hzip, decide_eq_true href⟩, rfl⟩

namespace Renderer

/-! ## References are written -/

theorem trim_referenceHtml (n : Nat) : Text.trim (referenceHtml n) = referenceHtml n := by
  have hend : ("</a></sup>" : Text) = "</a></sup" ++ ['>'] := by decide
  exact Text.trim_append rfl hend (by decide) (by decide)

theorem isInfix_referenceHtml (n : Nat) :
    (Html.Part.tag (supTag n)).source <:+: referenceHtml n ∧
      (Html.Part.tag (referenceTag n)).source <:+: referenceHtml n := by
  rw [Html.source_start, Html.source_start, Footnotes.referenceHtml_eq, List.append_assoc]
  exact ⟨⟨[], _, (List.append_assoc _ _ _).symm⟩, ⟨_, _, rfl⟩⟩

section headings

variable {r : Renderer} {s : Text}

theorem InHeading.step (h : r.InHeading s) {e : Event} (hraw : e.isRaw = false)
    (he : e.isHeadingMark = false) (line : Option Nat) : (r.step e line).InHeading s := by
  cases hnote : e.isNoteMark with
  | true =>
    obtain ⟨opened, hopened, hs⟩ := h
    exact ⟨opened, by rwa [headings_step_of_isNoteMark r hnote], hs⟩
  | false =>
  cases hinline : e.goesInline with
  | false => exact h.of_heading (adds_step r hinline hraw he hnote line).heading
  | true =>
    have hopen : r.headings.isOpen = true := by
      obtain ⟨opened, hopened, -⟩ := h
      rw [Headings.isOpen_eq, hopened]
      rfl
    exact h.of_heading ((addsInline_step r hinline line).heading hopen).heading

theorem InHeading.inPieces (h : r.InHeading s) {es : List (Event × Option Nat)}
    (hplace : placeAfter? (es.map (·.1)) .heading = some .page)
    (hraw : ∀ e ∈ es, e.1.isRaw = false) (opened : List Text) :
    InPieces (r.pieces opened es) (Text.trim s) := by
  induction es generalizing r opened with
  | nil => cases hplace
  | cons e es ih =>
    obtain ⟨p, hp, hrest⟩ := Option.bind_eq_some_iff.1 hplace
    rw [List.forall_mem_cons] at hraw
    cases he : e.1.isHeadingMark with
    | false =>
      obtain rfl : p = .heading := (Markdown.Place.eq_heading_iff_of_after? hp he).2 rfl
      exact (ih (h.step hraw.1 he e.2) hrest hraw.2 _).mono (List.subset_cons_self _ _)
    | true =>
      obtain ⟨e, line⟩ := e
      simp only [Event.isHeadingMark] at he
      split at he
      · cases hp
      · exact ⟨_, List.mem_cons_self, infix_written_stop_heading h _ line⟩
      · cases he

end headings

theorem inPieces_referenceHtml {r : Renderer} (hclosed : r.headings.isOpen = false)
    {es es' : List (Event × Option Nat)} {label : Text} {line : Option Nat}
    (hplace : placeAfter? ((es ++ (.footnoteReference label, line) :: es').map (·.1)) .page = some .page)
    (hraw : ∀ e ∈ es', e.1.isRaw = false) (opened : List Text) :
    InPieces (r.pieces opened (es ++ (.footnoteReference label, line) :: es'))
      (referenceHtml (((r.steps es).footnotes.refer label).number label)) := by
  rw [List.map_append, Markdown.placeAfter?_append] at hplace
  obtain ⟨p, hp, hbehind⟩ := Option.bind_eq_some_iff.1 hplace
  obtain ⟨q, hq, hrest⟩ := Option.bind_eq_some_iff.1 hbehind
  have hopen := isOpen_steps hp hclosed
  have hadds := addsInline_step (r.steps es) (e := .footnoteReference label) rfl line
  rw [pieces_append]
  cases p with
  | page =>
    have hwritten := (hadds.page hopen).written_eq rfl
    refine ⟨_, List.mem_append_right _ List.mem_cons_self, ?_⟩
    rw [hwritten]
    exact List.infix_rfl
  | heading =>
    obtain rfl := Option.some.inj hq
    have hheading := hadds.heading hopen
    obtain ⟨h, hh⟩ := Option.isSome_iff_exists.1 ((Headings.isOpen_eq _).symm.trans hopen)
    have hin : ((r.steps es).step (.footnoteReference label) line).InHeading
        (referenceHtml (((r.steps es).footnotes.refer label).number label)) := by
      refine ⟨(h.1, h.2 ++ _), ?_, (List.suffix_append _ _).isInfix⟩
      rw [hheading.heading, hh]
      rfl
    have hpieces := hin.inPieces hrest hraw
      (openNotes ((es.map (·.1)).foldl openNotes opened) (.footnoteReference label))
    rw [trim_referenceHtml] at hpieces
    refine hpieces.mono fun p hp => ?_
    exact List.mem_append_right _ (List.mem_cons_of_mem _ hp)
  | code => cases hq

/-! ## Tags of a page -/

/-- The tag is one of a reference of the document. -/
def RefersIn (events : List Event) (t : Html.Tag) : Prop :=
  ∃ label, .footnoteReference label ∈ events ∧
    (t = supTag (noteNumber events label) ∨ t = referenceTag (noteNumber events label))

section refersIn

variable {events : List Event} {n : Nat}

theorem refersIn_supTag_iff : RefersIn events (supTag n) ↔
    ∃ label, .footnoteReference label ∈ events ∧ n = noteNumber events label := by
  refine exists_congr fun label => and_congr_right fun _ => ⟨fun h => ?_, fun h => .inl (h ▸ rfl)⟩
  rcases h with h | h
  · exact Footnotes.anchor_inj (List.cons.inj (Html.Tag.mk.inj h).2.2).1
  · exact absurd (Html.Tag.mk.inj h).2.1 (by decide)

theorem refersIn_referenceTag_iff : RefersIn events (referenceTag n) ↔
    ∃ label, .footnoteReference label ∈ events ∧ n = noteNumber events label := by
  refine exists_congr fun label => and_congr_right fun _ => ⟨fun h => ?_, fun h => .inr (h ▸ rfl)⟩
  rcases h with h | h
  · exact absurd (Html.Tag.mk.inj h).2.1 (by decide)
  · exact Footnotes.anchor_inj (List.cons.inj (List.cons.inj (Html.Tag.mk.inj h).2.2).2).1

end refersIn

theorem isNoteTag_heading (heading : Heading) :
    (Html.Tag.start (headingName heading.level) (headingAttributes heading)).isNoteTag = false := by
  have hname : headingName heading.level ≠ "li" ∧ headingName heading.level ≠ "sup" := by
    simp [headingName]
  have hclass : ∀ value : Text, ⟨"class", some value⟩ ∉ headingAttributes heading := by
    simp [headingAttributes, Html.lineAttributes]
  rw [Html.Tag.isNoteTag_eq_false_iff, Html.Tag.isNoteItem, Html.Tag.isNoteBack,
    Html.Tag.isNoteReference, List.contains_eq_mem, List.contains_eq_mem,
    decide_eq_false hname.1, decide_eq_false hname.2, decide_eq_false (hclass _),
    decide_eq_false (hclass _)]
  exact ⟨rfl, rfl, rfl⟩

theorem between_referenceTags {events : List Event} {label : Text}
    (h : .footnoteReference label ∈ events) :
    ∀ t ∈ Footnotes.referenceTags (noteNumber events label), Between (RefersIn events) t := by
  have hstop : ∀ name, Between (RefersIn events) (.stop name) :=
    fun _ => Footnotes.between_of_isNoteTag (Html.Tag.isNoteTag_stop _)
  have hsup : Between (RefersIn events) (supTag (noteNumber events label)) :=
    ⟨rfl, rfl, fun _ => ⟨label, h, .inl rfl⟩⟩
  have hlink : Between (RefersIn events) (referenceTag (noteNumber events label)) :=
    ⟨rfl, rfl, fun _ => ⟨label, h, .inr rfl⟩⟩
  rw [Footnotes.referenceTags, List.forall_mem_cons, List.forall_mem_cons, List.forall_mem_cons,
    List.forall_mem_singleton]
  exact ⟨hsup, hlink, hstop "a", hstop "sup"⟩

/-- Outside of the section of notes, all tags of footnotes are those of references. -/
theorem between_pieces {strict : List Text} {opened : Option Text} {es : List (Event × Option Nat)}
    (h : InTurn strict es opened) (hdistinct : ((es.map (·.1)).filterMap (·.definedLabel?)).Nodup)
    (hraw : ∀ e ∈ es, e.1.isRaw = false) :
    ∀ p ∈ ({} : Renderer).pieces [] es, Tagged (Between (RefersIn (es.map (·.1)))) p.html := by
  refine (tagged_pieces (fun heading => ?_) (fun level => ?_) [] (fun _ hnone => by cases hnone) hraw
    fun es₁ e line es₂ heq => ?_).1
  · exact Footnotes.between_of_isNoteTag (isNoteTag_heading heading)
  · exact Footnotes.between_of_isNoteTag (Html.Tag.isNoteTag_stop _)
  · by_cases hreference : ∃ label, e = .footnoteReference label
    · obtain ⟨label, rfl⟩ := hreference
      subst heq
      rw [tagsOf, h.number_refer hdistinct]
      exact between_referenceTags (by simp)
    · intro t ht
      exact Footnotes.between_of_isNoteTag
        (isNoteTag_of_mem_tagsOf _ (fun label heq => hreference ⟨label, heq⟩) line t ht)

theorem infix_item {notes : List Note} {note : Note} {i : Nat} (h : notes[i]? = some note) (n : Nat) :
    Footnotes.Note.item (n + i) note <:+: Footnotes.items n notes := by
  induction notes generalizing n i with
  | nil => cases h
  | cons first notes ih =>
    rw [Footnotes.items]
    cases i with
    | zero =>
      obtain rfl := Option.some.inj h
      exact (List.prefix_append _ _).isInfix
    | succ i =>
      have hrest := ih h (n + 1)
      rw [Nat.add_right_comm] at hrest
      exact hrest.trans (List.suffix_append _ _).isInfix

section page

variable {events : List Event} {ps : List Piece}

theorem body_noteOf (h : ∀ label, .footnoteReference label ∈ events →
    .start (.footnoteDefinition label) ∈ events) {label : Text} (hlabel : label ∈ noteLabels events) :
    (noteOf none events ps label).body = some (writtenAt (some label) ps) := by
  refine if_pos ⟨?_, by simp⟩
  obtain ⟨e, he, hlabel⟩ := List.mem_filterMap.1 (List.mem_eraseDups.1 hlabel)
  unfold Event.noteLabel? at hlabel
  split at hlabel
  · obtain rfl := Option.some.inj hlabel
    exact h _ he
  · obtain rfl := Option.some.inj hlabel
    exact he
  · cases hlabel

end page

section assembled

variable {strict : List Text} {es : List (Event × Option Nat)} {label : Text}

theorem infix_noteItem (hreference : .footnoteReference label ∈ es.map (·.1))
    (hbody : (noteOf none (es.map (·.1)) (({} : Renderer).pieces [] es) label).body =
      some (writtenAt (some label) (({} : Renderer).pieces [] es))) :
    ("<li id=\"fn-" ++ Text.ofNat (noteNumber (es.map (·.1)) label) ++ "\">\n" ++
      writtenAt (some label) (({} : Renderer).pieces [] es) ++
      Footnotes.backReference (noteNumber (es.map (·.1)) label) ++ "</li>\n" : Text) <:+:
        assembledPage es := by
  have hlabel : label ∈ noteLabels (es.map (·.1)) := Markdown.mem_noteLabels hreference rfl
  have hget : (notesOf es)[(noteLabels (es.map (·.1))).idxOf label]? =
      some (noteOf none (es.map (·.1)) (({} : Renderer).pieces [] es) label) := by
    rw [notesOf, List.getElem?_map, List.getElem?_idxOf hlabel]
    rfl
  have hitem := infix_item hget 1
  rw [Nat.add_comm, Footnotes.Note.item, hbody] at hitem
  simp only [noteOf, hreference, decide_true, if_true] at hitem
  have hnote : noteOf none (es.map (·.1)) (({} : Renderer).pieces [] es) label ∈
      Footnotes.notes { notes := notesOf es } := List.mem_map_of_mem hlabel
  have hitems := infix_items_sectionHtml hnote hbody
  exact hitem.trans (hitems.trans (List.suffix_append _ _).isInfix)

/-- The items and the links back of the page are those of the numbers of the notes. -/
theorem lists_assembledPage (h : InTurn strict es none)
    (hdistinct : ((es.map (·.1)).filterMap (·.definedLabel?)).Nodup)
    (hraw : ∀ e ∈ es, e.1.isRaw = false)
    (hdefined : ∀ label, .footnoteReference label ∈ es.map (·.1) →
      .start (.footnoteDefinition label) ∈ es.map (·.1)) :
    Lists (RefersIn (es.map (·.1))) (List.range' 1 (noteLabels (es.map (·.1))).length)
      (referencedFrom 1 (notesOf es)) (assembledPage es) := by
  have htagged : ∀ place, Tagged (Between (RefersIn (es.map (·.1))))
      (writtenAt place (({} : Renderer).pieces [] es)) :=
    fun place => tagged_flatMap fun p hp =>
      between_pieces h hdistinct hraw p (List.mem_filter.1 hp).1
  have hbodies : ∀ note ∈ notesOf es, ∃ body, note.body = some body ∧
      Tagged (Between (RefersIn (es.map (·.1)))) body :=
    List.forall_mem_map.2 fun label hlabel => ⟨_, body_noteOf hdefined hlabel, htagged (some label)⟩
  have hsection := Lists.sectionHtml hbodies
  rw [notesOf, List.length_map] at hsection
  exact (Lists.of_tagged (htagged none)).append hsection

theorem tags_of_reference (h : InTurn strict es none)
    (hdistinct : ((es.map (·.1)).filterMap (·.definedLabel?)).Nodup)
    (hraw : ∀ e ∈ es, e.1.isRaw = false) (hplace : placeAfter? (es.map (·.1)) .page = some .page)
    {ts : List Html.Tag} (hts : tags? (assembledPage es) = some ts)
    (hlabel : .footnoteReference label ∈ es.map (·.1)) :
    supTag (noteNumber (es.map (·.1)) label) ∈ ts ∧ referenceTag (noteNumber (es.map (·.1)) label) ∈ ts := by
  obtain ⟨⟨e, line⟩, he, rfl⟩ := List.mem_map.1 hlabel
  obtain ⟨es₁, es₂, rfl⟩ := List.append_of_mem he
  have hpieces := inPieces_referenceHtml (r := {}) rfl hplace
    (fun e he => hraw e (List.mem_append_right _ (List.mem_cons_of_mem _ he))) []
  rw [h.number_refer hdistinct] at hpieces
  have hpage := infix_assembledPage h hpieces
  generalize noteNumber _ label = n at hpage ⊢
  obtain ⟨hsup, hlink⟩ := isInfix_referenceHtml n
  have hvisible := Html.visibleTags?_of_tags? hts
  have hsound : ∀ t ∈ Footnotes.referenceTags n, t.isSound = true :=
    fun t ht => Html.isSound_of_tags? (Footnotes.tags?_referenceHtml n) ht
  exact ⟨Html.mem_of_isInfix hvisible (hsound _ (by simp [Footnotes.referenceTags])) (hsup.trans hpage),
    Html.mem_of_isInfix hvisible (hsound _ (by simp [Footnotes.referenceTags])) (hlink.trans hpage)⟩

end assembled

/-- Links between references and notes lead both ways: the link of a reference leads to the one item
with the number of its label, which holds what was written inside the definition of the label; the
items stand in the order of their numbers; and there is one link back to each reference, and none to
anything else. -/
theorem noteLinks_renderLocated (options : Toc.Options) (lineOf? : Option (Nat → Nat)) {f : Forest}
    (hfits : f.fits .blocks = true) (hnotes : f.notesApart false = true)
    (hraw : ∀ e ∈ f.events, e.isRaw = false)
    (hdistinct : (f.events.filterMap (·.definedLabel?)).Nodup)
    (hdefined : ∀ label, .footnoteReference label ∈ f.events →
      .start (.footnoteDefinition label) ∈ f.events) :
    let html := (({} : Renderer).renderLocated options lineOf? f.located).1.html
    let ps := ({} : Renderer).pieces [] (lined lineOf? f)
    ∃ ts, tags? html = some ts ∧
      (∀ n, referenceTag n ∈ ts → ∃ label, .footnoteReference label ∈ f.events ∧
        n = noteNumber f.events label ∧ ts.count (itemTag n) = 1 ∧
        ("<li id=\"fn-" ++ Text.ofNat n ++ "\">\n" ++ writtenAt (some label) ps ++
          Footnotes.backReference n ++ "</li>\n" : Text) <:+: html) ∧
      (∀ label, .footnoteReference label ∈ f.events →
        supTag (noteNumber f.events label) ∈ ts ∧ referenceTag (noteNumber f.events label) ∈ ts) ∧
      (∀ m n, [itemTag m, itemTag n].Sublist ts → m < n) ∧
      ∀ n, ts.count (backTag n) = if supTag n ∈ ts then 1 else 0 := by
  intro html ps
  have hturn := inTurn_document lineOf? hfits hnotes
  have hplace := Forest.placeAfter?_events hfits (p := .page) rfl
  have hevents := map_fst_lined lineOf? f
  have hhtml : html = _ := html_renderLocated options lineOf? hraw
  have hrawLined : ∀ e ∈ lined lineOf? f, e.1.isRaw = false := fun e he => hraw e.1 (mem_lined he)
  rw [← hevents] at hplace hdistinct hdefined ⊢
  rw [hturn.output_append_sectionHtml hdistinct] at hhtml
  obtain ⟨ts, hts, hitems, hbacks, hrefers⟩ :=
    lists_assembledPage hturn hdistinct hrawLined hdefined
  rw [hhtml]
  have hwritten : ∀ label, .footnoteReference label ∈ (lined lineOf? f).map (·.1) →
      supTag (noteNumber ((lined lineOf? f).map (·.1)) label) ∈ ts ∧
        referenceTag (noteNumber ((lined lineOf? f).map (·.1)) label) ∈ ts :=
    fun label hlabel => tags_of_reference hturn hdistinct hrawLined hplace hts hlabel
  refine ⟨ts, hts, fun n hn => ?_, hwritten, fun m n => ?_, fun n => ?_⟩
  · obtain ⟨label, hlabel, rfl⟩ := refersIn_referenceTag_iff.1 (hrefers _ hn rfl)
    have hmem := Markdown.mem_noteLabels hlabel rfl
    refine ⟨label, hlabel, rfl, ?_, infix_noteItem hlabel (body_noteOf hdefined hmem)⟩
    have hnumber : noteNumber ((lined lineOf? f).map (·.1)) label ∈
        List.range' 1 (noteLabels ((lined lineOf? f).map (·.1))).length := by
      rw [List.mem_range'_1, noteNumber]
      have hlt := List.idxOf_lt_length_iff.2 hmem
      omega
    rw [Footnotes.count_itemTag hitems, (List.nodup_range' 1).count, if_pos hnumber]
  · exact Footnotes.lt_of_sublist hitems (List.pairwise_lt_range' 1)
  · have hback : n ∈ referencedFrom 1 (notesOf (lined lineOf? f)) ↔ supTag n ∈ ts := by
      rw [mem_referencedFrom_notesOf_iff]
      constructor
      · rintro ⟨label, hlabel, rfl⟩
        exact (hwritten label hlabel).1
      · intro hsup
        exact refersIn_supTag_iff.1 (hrefers _ hsup rfl)
    rw [Footnotes.count_backTag hbacks, (Footnotes.nodup_referencedFrom _ _).count]
    exact if_congr hback rfl rfl

/-- A reference in a heading, a note without references, and two notes defined in the other order
than they are referred to, the first from inside the second. -/
def crossedNotes : Forest :=
  .element (.heading 1 none) 0 9 (.leaf (.text "T") 2 <| .leaf (.footnoteReference "b") 3 .nil) <|
  .element (.footnoteDefinition "a") 10 20
    (.element .paragraph 15 20 (.leaf (.text "unused") 15 .nil) .nil) <|
  .element .paragraph 21 30 (.leaf (.footnoteReference "c") 21 .nil) <|
  .element (.footnoteDefinition "c") 31 40
    (.element .paragraph 36 40 (.leaf (.footnoteReference "b") 36 .nil) .nil) <|
  .element (.footnoteDefinition "b") 41 50
    (.element (.codeBlock none) 46 50 (.leaf (.text "x < y") 46 .nil) .nil) .nil

theorem noteLinks_crossedNotes :
    crossedNotes.fits .blocks = true ∧ crossedNotes.notesApart false = true ∧
      (∀ e ∈ crossedNotes.events, e.isRaw = false) ∧
      (crossedNotes.events.filterMap (·.definedLabel?)).Nodup ∧
      (∀ label, .footnoteReference label ∈ crossedNotes.events →
        .start (.footnoteDefinition label) ∈ crossedNotes.events) ∧
      let html := (({} : Renderer).renderLocated {} none crossedNotes.located).1.html
      let ps := ({} : Renderer).pieces [] (lined none crossedNotes)
      ∃ ts, tags? html = some ts ∧
        (∀ n, referenceTag n ∈ ts → ∃ label, .footnoteReference label ∈ crossedNotes.events ∧
          n = noteNumber crossedNotes.events label ∧ ts.count (itemTag n) = 1 ∧
          ("<li id=\"fn-" ++ Text.ofNat n ++ "\">\n" ++ writtenAt (some label) ps ++
            Footnotes.backReference n ++ "</li>\n" : Text) <:+: html) ∧
        (∀ label, .footnoteReference label ∈ crossedNotes.events →
          supTag (noteNumber crossedNotes.events label) ∈ ts ∧
            referenceTag (noteNumber crossedNotes.events label) ∈ ts) ∧
        (∀ m n, [itemTag m, itemTag n].Sublist ts → m < n) ∧
        ∀ n, ts.count (backTag n) = if supTag n ∈ ts then 1 else 0 := by
  have hfits : crossedNotes.fits .blocks = true := by decide
  have hnotes : crossedNotes.notesApart false = true := by decide
  have hraw : ∀ e ∈ crossedNotes.events, e.isRaw = false := by decide
  have hdistinct : (crossedNotes.events.filterMap (·.definedLabel?)).Nodup := by decide
  have hdefined : ∀ label, .footnoteReference label ∈ crossedNotes.events →
      .start (.footnoteDefinition label) ∈ crossedNotes.events := by
    intro label hlabel
    have hlabel : label = "b" ∨ label = "c" := by simpa [crossedNotes, or_comm] using hlabel
    rcases hlabel with rfl | rfl <;> decide
  exact ⟨hfits, hnotes, hraw, hdistinct, hdefined,
    noteLinks_renderLocated {} none hfits hnotes hraw hdistinct hdefined⟩

end Renderer

end Galley.Render
