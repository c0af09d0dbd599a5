import Galley.Proofs.Markdown.Forest

/-!
# Where texts are collected

Between the start and the end of a heading or of a code block, texts are collected in it. Read event
by event, a document stands in a heading, in a code block or in neither of them. The grammar sees to
it that headings and code blocks end before another one starts (`Forest.placeAfter?_events`).
-/

namespace Galley.Markdown

/-- What collects the texts between two events. -/
inductive Place
  | page
  | heading
  | code
deriving DecidableEq, Repr

def Event.isPlaceMark : Event → Bool
  | .start (.heading _ _) | .stop (.heading _) | .start (.codeBlock _) | .stop .codeBlock => true
  | _ => false

def Event.isHeadingMark : Event → Bool
  | .start (.heading _ _) | .stop (.heading _) => true
  | _ => false

/-- The place behind an event, if the event may stand in the place before it. -/
def Place.after? : Place → Event → Option Place
  | .page, .start (.heading _ _) => some .heading
  | .page, .start (.codeBlock _) => some .code
  | .heading, .stop (.heading _) => some .page
  | .code, .stop .codeBlock => some .page
  | .code, .text _ => some .code
  | .code, _ => none
  | p, e => if e.isPlaceMark then none else some p

def placeAfter? : List Event → Place → Option Place
  | [], p => some p
  | e :: es, p => (p.after? e).bind (placeAfter? es)

theorem placeAfter?_append (es es' : List Event) (p : Place) :
    placeAfter? (es ++ es') p = (placeAfter? es p).bind (placeAfter? es') := by
  induction es generalizing p with
  | nil => rfl
  | cons e es ih =>
    show (p.after? e).bind (placeAfter? (es ++ es')) = _
    rw [funext ih]
    exact (Option.bind_assoc ..).symm

theorem Place.eq_heading_iff_of_after? {p q : Place} {e : Event} (h : p.after? e = some q)
    (he : e.isHeadingMark = false) : q = .heading ↔ p = .heading := by
  unfold Place.after? at h
  split at h <;> grind [Event.isHeadingMark]

theorem Event.isHeadingMark_of_not_isPlaceMark {e : Event} (h : e.isPlaceMark = false) :
    e.isHeadingMark = false := by
  unfold isHeadingMark
  split <;> first | rfl | cases h

theorem Place.eq_of_after? {p q : Place} {e : Event} (h : p.after? e = some q)
    (he : e.isPlaceMark = false) : q = p := by
  unfold Place.after? at h
  split at h <;> grind [Event.isPlaceMark]

theorem Place.exists_text_of_after? {q : Place} {e : Event} (h : Place.code.after? e = some q)
    (he : e.isPlaceMark = false) : ∃ text, e = .text text := by
  unfold Place.after? at h
  split at h <;> grind [Event.isPlaceMark]

/-- Whether content of this kind may stand in the place. -/
def Content.standsIn : Content → Place → Bool
  | .inlines, .page | .inlines, .heading => true
  | .literal, .page | .literal, .code => true
  | .inlines, .code | .literal, .heading => false
  | _, p => p = .page

theorem Content.standsIn_after {c : Content} {p : Place} (h : c.standsIn p = true) :
    c.after.standsIn p = true := by
  cases c <;> exact h

theorem Place.after?_of_admits {c : Content} {p : Place} {e : Event} (hp : c.standsIn p = true)
    (h : c.admits e = true) : p.after? e = some p := by
  cases p with
  | page => cases e <;> first | rfl | (cases c <;> cases h)
  | heading =>
    have hc : c = .inlines := by cases c <;> first | rfl | cases hp
    subst hc
    cases e <;> first | rfl | cases h
  | code =>
    have hc : c = .literal := by cases c <;> first | rfl | cases hp
    subst hc
    cases e <;> first | rfl | cases h

theorem Place.exists_after?_start {c : Content} {p : Place} {tag : Tag} (hp : c.standsIn p = true)
    (h : c.holds tag = true) : ∃ q, p.after? (.start tag) = some q ∧
      tag.content.standsIn q = true ∧ q.after? (.stop tag.toEnd) = some p := by
  cases p with
  | page =>
    cases tag with
    | heading _ _ => exact ⟨.heading, rfl, rfl, rfl⟩
    | codeBlock _ => exact ⟨.code, rfl, rfl, rfl⟩
    | _ => exact ⟨.page, rfl, rfl, rfl⟩
  | heading =>
    have hc : c = .inlines := by cases c <;> first | rfl | cases hp
    subst hc
    cases tag <;> first | exact ⟨.heading, rfl, rfl, rfl⟩ | cases h
  | code =>
    have hc : c = .literal := by cases c <;> first | rfl | cases hp
    subst hc
    cases tag <;> cases h

/-- A well-nested document ends in the place where it began. -/
theorem Forest.placeAfter?_events {c : Content} {p : Place} {f : Forest} (hfits : f.fits c = true)
    (hp : c.standsIn p = true) : placeAfter? f.events p = some p := by
  induction f generalizing c p with
  | nil => rfl
  | leaf e offset rest ih =>
    obtain ⟨hadmits, hrest⟩ := fits_leaf_iff.1 hfits
    rw [events_leaf, placeAfter?, Place.after?_of_admits hp hadmits]
    exact ih hrest hp
  | element tag start stop inner rest ihInner ihRest =>
    obtain ⟨hholds, hinner, hrest⟩ := fits_element_iff.1 hfits
    obtain ⟨q, hstart, hq, hstop⟩ := Place.exists_after?_start hp hholds
    have hinside := ihInner hinner hq
    have hbehind := ihRest hrest (Content.standsIn_after hp)
    rw [events_element, placeAfter?, hstart, Option.bind_some, placeAfter?_append, hinside,
      Option.bind_some, placeAfter?, hstop]
    exact hbehind

end Galley.Markdown
