import Galley.Proofs.Render.EventTags

/-!
# The tags that the state holds

Between two events, what was written stands on the page, on the page put aside, in the open heading or
in a note. A step moves texts from one of these places to another and adds the tags of its event; it
drops a text only where a definition starts inside another one or ends for the second time, or where a
heading starts inside another one. So tags are neither lost nor doubled unless a text is dropped
(`held_step`, `held_steps`).
-/

namespace Galley.Html

def countTags (q : Tag → Bool) (u : Text) : Nat := ((tags? u).getD []).countP q

def countAllTags (q : Tag → Bool) : List Text → Nat
  | [] => 0
  | u :: us => countTags q u + countAllTags q us

section countTags

variable {q : Tag → Bool} {u v : Text} {ts : List Tag}

theorem countTags_of_tags? (h : tags? u = some ts) : countTags q u = ts.countP q := by
  rw [countTags, h, Option.getD_some]

theorem countTags_nil : countTags q [] = 0 := rfl

theorem isSome_tags?_append (hu : (tags? u).isSome = true) (hv : (tags? v).isSome = true) :
    (tags? (u ++ v)).isSome = true := by
  obtain ⟨ts, hts⟩ := Option.isSome_iff_exists.1 hu
  obtain ⟨us, hus⟩ := Option.isSome_iff_exists.1 hv
  rw [tags?_append hts hus]
  rfl

theorem countTags_append (hu : (tags? u).isSome = true) (hv : (tags? v).isSome = true) :
    countTags q (u ++ v) = countTags q u + countTags q v := by
  obtain ⟨ts, hts⟩ := Option.isSome_iff_exists.1 hu
  obtain ⟨us, hus⟩ := Option.isSome_iff_exists.1 hv
  rw [countTags_of_tags? (tags?_append hts hus), countTags_of_tags? hts, countTags_of_tags? hus,
    List.countP_append]

end countTags

end Galley.Html

namespace Galley.Render

open Html (countAllTags countTags countTags_append countTags_nil countTags_of_tags? isSome_tags?_append tags?)
open Markdown (Event)

/-! ## Texts of notes -/

namespace Footnotes

def bodies (fs : Footnotes) : List Text := fs.notes.filterMap (·.body)

def body? (fs : Footnotes) (label : Text) : Option Text :=
  (fs.notes.find? (·.label = label)).bind (·.body)

variable {fs : Footnotes} {label body : Text}

theorem bodies_know (fs : Footnotes) (label : Text) : (fs.know label).bodies = fs.bodies := by
  unfold know
  split
  · rfl
  · simp [bodies]

theorem bodies_refer (fs : Footnotes) (label : Text) : (fs.refer label).bodies = fs.bodies := by
  have hmodify : ∀ notes : List Note,
      (modify label ({ · with referenced := true }) notes).filterMap (·.body) =
        notes.filterMap (·.body) := by
    intro notes
    induction notes with
    | nil => rfl
    | cons note notes ih =>
      rw [modify]
      split
      · simp [List.filterMap_cons]
      · simp [List.filterMap_cons, ih]
  exact (hmodify _).trans (bodies_know fs label)

theorem bodies_after (fs : Footnotes) (e : Event) : (fs.after e).bodies = fs.bodies := by
  unfold after
  split
  · exact bodies_refer fs _
  · exact bodies_know fs _
  · rfl

theorem body?_know (fs : Footnotes) (label : Text) : (fs.know label).body? label = fs.body? label := by
  unfold know
  split
  · rfl
  · next hnew =>
    have hnone : fs.notes.find? (·.label = label) = none := by
      rw [List.find?_eq_none]
      simpa using hnew
    simp [body?, hnone]

theorem countAllTags_endDefinition (q : Html.Tag → Bool) (h : fs.current = some label) (body : Text) :
    countAllTags q (fs.endDefinition body).bodies + countTags q ((fs.body? label).getD []) =
      countAllTags q fs.bodies + countTags q body := by
  have hknown := any_know fs label
  rw [bodies, notes_endDefinition h, ← body?_know, ← bodies_know fs label, body?, bodies]
  generalize (fs.know label).notes = notes at hknown ⊢
  induction notes with
  | nil => cases hknown
  | cons note notes ih =>
    rw [modify]
    by_cases hlabel : note.label = label
    · rw [if_pos hlabel]
      cases hbody : note.body with
      | none => simp [hlabel, hbody, countAllTags, countTags_nil, Nat.add_comm]
      | some old =>
        simp only [hlabel, hbody, List.filterMap_cons, List.find?_cons, decide_true, Option.bind_some,
          Option.getD_some, countAllTags]
        omega
    · rw [List.any_cons, decide_eq_false hlabel, Bool.false_or] at hknown
      have hrest := ih hknown
      rw [if_neg hlabel, List.filterMap_cons, List.filterMap_cons, List.find?_cons_of_neg (by simpa)]
      cases note.body with
      | none => exact hrest
      | some old =>
        simp only [countAllTags] at hrest ⊢
        omega

theorem mem_bodies_endDefinition {text : Text} (h : text ∈ (fs.endDefinition body).bodies) :
    text ∈ fs.bodies ∨ text = body := by
  have hall : ∀ note ∈ (fs.endDefinition body).notes, ∀ text, note.body = some text →
      text ∈ fs.bodies ∨ text = body := by
    refine forall_endDefinition (fun note hnote text htext => ?_) fun label _ => ⟨?_, ?_⟩
    · exact .inl (List.mem_filterMap.2 ⟨note, hnote, htext⟩)
    · exact fun text hnone => by cases hnone
    · exact fun note _ _ text htext => .inr (Option.some.inj htext).symm
  obtain ⟨note, hnote, htext⟩ := List.mem_filterMap.1 h
  exact hall note hnote text htext

end Footnotes

namespace Renderer

/-! ## What is held -/

/-- The text of the open heading so far; without one, nothing. -/
def headingText (r : Renderer) : Text := (r.headings.openHtml.map (·.2)).getD []

/-- How many tags that are `q` the state holds. -/
def held (q : Html.Tag → Bool) (r : Renderer) : Nat :=
  countTags q r.output + countTags q (r.saved.getD []) + countTags q r.headingText +
    countAllTags q r.footnotes.bodies

/-- The tags of all texts that the state holds can be read. -/
structure Legible (r : Renderer) : Prop where
  output : (tags? r.output).isSome = true
  saved : (tags? (r.saved.getD [])).isSome = true
  heading : (tags? r.headingText).isSome = true
  bodies : ∀ body ∈ r.footnotes.bodies, (tags? body).isSome = true

theorem legible_start : Legible {} := ⟨rfl, rfl, rfl, fun _ h => by cases h⟩

/-- The text that a step drops. -/
def dropped? (r : Renderer) : Event → Option Text
  | .start (.heading _ _) => some r.headingText
  | .start (.footnoteDefinition _) => r.saved
  | .stop .footnoteDefinition => r.footnotes.current.bind r.footnotes.body?
  | _ => none

/-- The tags that a step adds: those of the event, or those of the heading that ends. -/
def newTags (r : Renderer) (line : Option Nat) : Event → List Html.Tag
  | .stop (.heading _) =>
    match r.headings.opened with
    | none => []
    | some opened =>
      let heading := r.headings.completed opened
      [.start (headingName heading.level) (headingAttributes heading),
        .stop (headingName heading.level)]
  | e => r.tagsOf line e

section step

variable {r : Renderer} {e : Event} {q : Html.Tag → Bool}

theorem adds_page_or_heading (r : Renderer) (hraw : e.isRaw = false)
    (hheading : e.isHeadingMark = false) (hnote : e.isNoteMark = false) (line : Option Nat) :
    Adds r (r.step e line) (r.emitted e line) [] ∨
      r.headings.isOpen = true ∧ Adds r (r.step e line) [] (r.emitted e line) := by
  cases hinline : e.goesInline with
  | false => exact .inl (adds_step r hinline hraw hheading hnote line)
  | true =>
    have hadds := addsInline_step r hinline line
    cases hopen : r.headings.isOpen with
    | false => exact .inl (hadds.page hopen)
    | true => exact .inr ⟨rfl, hadds.heading hopen⟩

theorem headingText_of_adds {r' : Renderer} {out head : Text} (h : Adds r r' out head)
    (hhead : r.headings.isOpen = true ∨ head = []) : r'.headingText = r.headingText ++ head := by
  rw [headingText, headingText, h.heading]
  rw [Headings.isOpen_eq] at hhead
  cases hopened : r.headings.openHtml with
  | none =>
    rw [hopened] at hhead
    rw [hhead.resolve_left Bool.noConfusion]
    rfl
  | some opened => rfl

theorem Legible.of_adds {r' : Renderer} {out head : Text} (h : r.Legible) (hadds : Adds r r' out head)
    (hhead : r.headings.isOpen = true ∨ head = []) (hsaved : r'.saved = r.saved)
    (hbodies : r'.footnotes.bodies = r.footnotes.bodies) (hout : (tags? out).isSome = true)
    (hheadText : (tags? head).isSome = true) :
    r'.Legible ∧ r'.held q = r.held q + countTags q out + countTags q head := by
  have hheading := headingText_of_adds hadds hhead
  refine ⟨⟨?_, ?_, ?_, ?_⟩, ?_⟩
  · rw [hadds.output]
    exact isSome_tags?_append h.output hout
  · rw [hsaved]
    exact h.saved
  · rw [hheading]
    exact isSome_tags?_append h.heading hheadText
  · rw [hbodies]
    exact h.bodies
  · rw [held, held, hadds.output, hsaved, hheading, hbodies, countTags_append h.output hout,
      countTags_append h.heading hheadText]
    omega

theorem newTags_of_not_isHeadingMark {line : Option Nat} (he : e.isHeadingMark = false) :
    r.newTags line e = r.tagsOf line e := by
  unfold newTags
  split
  · cases he
  · rfl

theorem held_step_of_not_mark (h : r.Legible) (hraw : e.isRaw = false)
    (hheading : e.isHeadingMark = false) (hnote : e.isNoteMark = false) (line : Option Nat) :
    (r.step e line).Legible ∧
      (r.step e line).held q = r.held q + (r.tagsOf line e).countP q := by
  have hne : e ≠ .stop .footnoteDefinition := by
    rintro rfl
    cases hnote
  have hsaved := saved_step r line hnote
  have hbodies : (r.step e line).footnotes.bodies = r.footnotes.bodies := by
    rw [footnotes_step r hne, Footnotes.bodies_after]
  have htags := tags?_emitted r hraw hheading line
  have hreads : (tags? (r.emitted e line)).isSome = true := by rw [htags]; rfl
  have hnil : (tags? []).isSome = true := rfl
  rw [← countTags_of_tags? htags]
  rcases adds_page_or_heading r hraw hheading hnote line with hadds | ⟨hopen, hadds⟩
  · obtain ⟨hlegible, hheld⟩ := h.of_adds (q := q) hadds (.inr rfl) hsaved hbodies hreads hnil
    exact ⟨hlegible, hheld⟩
  · obtain ⟨hlegible, hheld⟩ := h.of_adds (q := q) hadds (.inl hopen) hsaved hbodies hnil hreads
    exact ⟨hlegible, hheld⟩

theorem tags?_headingHtml (heading : Heading) {ts : List Html.Tag} (h : tags? heading.html = some ts) :
    tags? (headingHtml heading) =
      some ([.start (headingName heading.level) (headingAttributes heading)] ++ ts ++
        [.stop (headingName heading.level)]) := by
  rw [headingHtml_eq]
  exact Html.tags?_append (Html.tags?_append (tags?_headingStart heading) ((Html.tags?_trim _).trans h))
    (tags?_headingEnd heading.level)

theorem held_endHeading (h : r.Legible) (level : Nat) (line : Option Nat) :
    r.endHeading.Legible ∧
      r.endHeading.held q = r.held q + (r.newTags line (.stop (.heading level))).countP q := by
  cases hopened : r.headings.opened with
  | none =>
    rw [endHeading_of_none hopened, newTags, hopened]
    exact ⟨h, rfl⟩
  | some opened =>
    have htext : r.headingText = opened.html := by
      rw [headingText, Headings.openHtml, hopened]
      rfl
    obtain ⟨ts, hts⟩ := Option.isSome_iff_exists.1 h.heading
    have hwritten := tags?_headingHtml (r.headings.completed opened) (htext ▸ hts)
    have hreads : (tags? (headingHtml (r.headings.completed opened))).isSome = true := by
      rw [hwritten]
      rfl
    have hnew : (r.newTags line (.stop (.heading level))).countP q + ts.countP q =
        countTags q (headingHtml (r.headings.completed opened)) := by
      rw [countTags_of_tags? hwritten, newTags, hopened]
      simp only [List.countP_append, List.countP_cons, List.countP_nil]
      omega
    have houtput := countTags_append (q := q) h.output hreads
    rw [endHeading_of_some hopened]
    refine ⟨⟨isSome_tags?_append h.output hreads, h.saved, rfl, h.bodies⟩, ?_⟩
    show countTags q (r.output ++ _) + countTags q (r.saved.getD []) + 0 +
      countAllTags q r.footnotes.bodies = _
    rw [houtput, held, countTags_of_tags? hts]
    omega

theorem held_startNote (h : r.Legible) (label : Text) (line : Option Nat) :
    (r.startTag (.footnoteDefinition label) line).Legible ∧
      (r.startTag (.footnoteDefinition label) line).held q + countTags q (r.saved.getD []) =
        r.held q := by
  have hbodies : (r.footnotes.beginDefinition label).bodies = r.footnotes.bodies :=
    Footnotes.bodies_know r.footnotes label
  refine ⟨⟨rfl, h.output, h.heading, fun body hbody => h.bodies body (hbodies ▸ hbody)⟩, ?_⟩
  show 0 + countTags q r.output + countTags q r.headingText +
    countAllTags q (r.footnotes.beginDefinition label).bodies + _ = _
  rw [hbodies, held]
  omega

theorem held_endNote (h : r.Legible) :
    r.endFootnote.Legible ∧
      r.endFootnote.held q + countTags q ((r.footnotes.current.bind r.footnotes.body?).getD []) =
        r.held q := by
  cases hcurrent : r.footnotes.current with
  | none =>
    have hsame : r.endFootnote = r := by
      unfold endFootnote
      rw [hcurrent]
      rfl
    rw [hsame]
    exact ⟨h, rfl⟩
  | some label =>
    have hcount := Footnotes.countAllTags_endDefinition q hcurrent
    rw [Option.bind_some]
    cases hsaved : r.saved with
    | none =>
      -- nothing was put aside: the page stays, and the note has the empty text
      have hend : r.endFootnote = { r with footnotes := r.footnotes.endDefinition [] } := by
        unfold endFootnote
        rw [hcurrent, hsaved]
        rfl
      rw [hend]
      refine ⟨⟨h.output, h.saved, h.heading, fun body hbody => ?_⟩, ?_⟩
      · rcases Footnotes.mem_bodies_endDefinition hbody with hbody | rfl
        · exact h.bodies body hbody
        · rfl
      · have hempty := hcount []
        rw [countTags_nil] at hempty
        show countTags q r.output + countTags q (r.saved.getD []) + countTags q r.headingText +
          countAllTags q (r.footnotes.endDefinition []).bodies + _ = _
        rw [held]
        omega
    | some page =>
      -- the page comes back, and what was written becomes the text of the note
      rw [endFootnote_eq hcurrent hsaved]
      have hpage := h.saved
      rw [hsaved] at hpage
      refine ⟨⟨hpage, rfl, h.heading, fun body hbody => ?_⟩, ?_⟩
      · rcases Footnotes.mem_bodies_endDefinition hbody with hbody | rfl
        · exact h.bodies body hbody
        · exact h.output
      · have hwritten := hcount r.output
        show countTags q page + 0 + countTags q r.headingText +
          countAllTags q (r.footnotes.endDefinition r.output).bodies + _ = _
        rw [held, hsaved, Option.getD_some]
        omega

/-- A step moves the tags that are held, adds those that are new and loses those of the text that it
drops. -/
theorem held_step (h : r.Legible) (hraw : e.isRaw = false) (line : Option Nat) :
    (r.step e line).Legible ∧
      (r.step e line).held q + countTags q ((r.dropped? e).getD []) =
        r.held q + (r.newTags line e).countP q := by
  cases hnote : e.isNoteMark with
  | true =>
    unfold Event.isNoteMark at hnote
    split at hnote
    · exact held_startNote h _ line
    · exact held_endNote h
    · cases hnote
  | false =>
  cases hheading : e.isHeadingMark with
  | true =>
    unfold Event.isHeadingMark at hheading
    split at hheading
    · refine ⟨⟨h.output, h.saved, rfl, h.bodies⟩, ?_⟩
      show countTags q r.output + countTags q (r.saved.getD []) + 0 +
        countAllTags q r.footnotes.bodies + countTags q r.headingText = r.held q + 0
      rw [held]
      omega
    · exact held_endHeading h _ line
    · cases hheading
  | false =>
    have hdropped : r.dropped? e = none := by
      unfold dropped?
      split
      · cases hheading
      · cases hnote
      · cases hnote
      · rfl
    rw [newTags_of_not_isHeadingMark hheading, hdropped]
    exact held_step_of_not_mark h hraw hheading hnote line

end step

/-! ## Runs -/

/-- The sum over the steps of a run of what each of them amounts to. -/
def total (amount : Renderer → Option Nat → Event → Nat) (r : Renderer) :
    List (Event × Option Nat) → Nat
  | [] => 0
  | (e, line) :: es => amount r line e + total amount (r.step e line) es

section run

variable {r : Renderer} {es : List (Event × Option Nat)} {q : Html.Tag → Bool}

theorem total_eq_countP {amount : Renderer → Option Nat → Event → Nat} {p : Event → Bool}
    (h : ∀ es₁ e line es₂, es = es₁ ++ (e, line) :: es₂ →
      amount (r.steps es₁) line e = if p e then 1 else 0) :
    total amount r es = (es.map (·.1)).countP p := by
  induction es generalizing r with
  | nil => rfl
  | cons first es ih =>
    obtain ⟨e, line⟩ := first
    have hfirst := h [] e line es rfl
    have hrest := ih fun es₁ e' line' es₂ heq =>
      h ((e, line) :: es₁) e' line' es₂ (congrArg _ heq)
    rw [total, hrest, List.map_cons, List.countP_cons, Nat.add_comm]
    exact congrArg _ hfirst

/-- What is held behind a run and what was dropped during it are what was held before and what is
new. -/
theorem held_steps (h : r.Legible) (hraw : ∀ e ∈ es, e.1.isRaw = false) :
    (r.steps es).Legible ∧
      (r.steps es).held q + total (fun r _ e => countTags q ((r.dropped? e).getD [])) r es =
        r.held q + total (fun r line e => (r.newTags line e).countP q) r es := by
  induction es generalizing r with
  | nil => exact ⟨h, rfl⟩
  | cons first es ih =>
    obtain ⟨e, line⟩ := first
    rw [List.forall_mem_cons] at hraw
    obtain ⟨hlegible, hstep⟩ := held_step (q := q) h hraw.1 line
    obtain ⟨hbehind, hrest⟩ := ih hlegible hraw.2
    refine ⟨hbehind, ?_⟩
    show ((r.step e line).steps es).held q + (countTags q ((r.dropped? e).getD []) + total _ _ es) =
      r.held q + ((r.newTags line e).countP q + total _ _ es)
    dsimp only at hstep hrest ⊢
    omega

end run

end Renderer

end Galley.Render
