import Galley.Proofs.Html.Piece

/-!
# Nested tags

Reading a page from the left keeps the names of the open elements. A page is nested if each of its
elements is known and is closed exactly once, the last opened first, with nothing left open at the
end.

`Walk html s s'` says that reading `html` inside the open elements `s` ends inside `s'`. Walks are
put together by `Walk.append`; replacing a comment by a balanced text keeps them (`Walk.replace`),
and so does trimming (`Walk.trim`).
-/

namespace Galley.Html

/-! ## Open elements -/

def elementNames : List Text :=
  ["p", "h1", "h2", "h3", "h4", "h5", "h6", "blockquote", "div", "pre", "code", "ol", "ul", "li",
    "dl", "dt", "dd", "table", "thead", "tbody", "tr", "th", "td", "em", "strong", "del", "sup",
    "sub", "a", "span"]

def voidNames : List Text := ["br", "hr", "img", "input"]

/-- The open elements behind a tag, the innermost first; there are none if the tag has an unknown
name or closes another element than the innermost. -/
def Tag.after? (t : Tag) (opened : List Text) : Option (List Text) :=
  if t.closing then
    match opened with
    | name :: outer => if name = t.name then some outer else none
    | [] => none
  else if voidNames.contains t.name then some opened
  else if elementNames.contains t.name then some (t.name :: opened)
  else none

def openAfter? : List Tag → List Text → Option (List Text)
  | [], opened => some opened
  | t :: ts, opened => (t.after? opened).bind (openAfter? ts)

def isNested (html : Text) : Bool := (visibleTags? html).any fun ts => openAfter? ts [] = some []

def isElement (name : Text) : Bool := elementNames.contains name && !voidNames.contains name

theorem openAfter?_start {name : Text} (hname : isElement name = true) (as : List Attribute)
    (ts : List Tag) (opened : List Text) :
    openAfter? (.start name as :: ts) opened = openAfter? ts (name :: opened) := by
  obtain ⟨helement, hvoid⟩ : elementNames.contains name = true ∧ voidNames.contains name = false := by
    simpa [isElement] using hname
  have hafter : (Tag.start name as).after? opened = some (name :: opened) := by
    unfold Tag.after?
    rw [if_neg (by simp), if_neg (by simpa using hvoid), if_pos helement]
  rw [openAfter?, hafter]
  rfl

theorem openAfter?_void {name : Text} (hname : voidNames.contains name = true)
    (as : List Attribute) (ts : List Tag) (opened : List Text) :
    openAfter? (.start name as :: ts) opened = openAfter? ts opened := by
  have hafter : (Tag.start name as).after? opened = some opened := by
    unfold Tag.after?
    rw [if_neg (by simp), if_pos hname]
  rw [openAfter?, hafter]
  rfl

theorem openAfter?_stop (name : Text) (ts : List Tag) (opened : List Text) :
    openAfter? (.stop name :: ts) (name :: opened) = openAfter? ts opened := by
  have hafter : (Tag.stop name).after? (name :: opened) = some opened := by simp [Tag.after?]
  rw [openAfter?, hafter]
  rfl

theorem openAfter?_append (ts us : List Tag) (opened : List Text) :
    openAfter? (ts ++ us) opened = (openAfter? ts opened).bind (openAfter? us) := by
  induction ts generalizing opened with
  | nil => rfl
  | cons t ts ih =>
    show (t.after? opened).bind (openAfter? (ts ++ us)) = _
    rw [funext ih]
    exact (Option.bind_assoc ..).symm

theorem openAfter?_frame {ts : List Tag} {opened opened' : List Text}
    (h : openAfter? ts opened = some opened') (outer : List Text) :
    openAfter? ts (opened ++ outer) = some (opened' ++ outer) := by
  have hstep : ∀ (t : Tag) {s s' : List Text}, t.after? s = some s' →
      t.after? (s ++ outer) = some (s' ++ outer) := by
    intro t s s' hs
    unfold Tag.after? at hs ⊢
    grind
  induction ts generalizing opened with
  | nil =>
    obtain rfl := Option.some.inj h
    rfl
  | cons t ts ih =>
    obtain ⟨s, hs, hrest⟩ := Option.bind_eq_some_iff.1 h
    rw [openAfter?, hstep t hs]
    exact ih hrest

/-! ## Walks -/

/-- Reading `html` inside the open elements `s` ends inside the open elements `s'`. -/
def Walk (html : Text) (s s' : List Text) : Prop :=
  ∃ ts, visibleTags? html = some ts ∧ openAfter? ts s = some s'

/-- Reading `html` leaves the open elements as they are. -/
def Balanced (html : Text) : Prop := ∀ s, Walk html s s

namespace Walk

variable {a b html : Text} {s s₁ s₂ : List Text}

theorem append (ha : Walk a s s₁) (hb : Walk b s₁ s₂) : Walk (a ++ b) s s₂ := by
  obtain ⟨ts, hts, ho⟩ := ha
  obtain ⟨us, hus, ho'⟩ := hb
  refine ⟨ts ++ us, visibleTags?_append hts hus, ?_⟩
  rw [openAfter?_append, ho]
  exact ho'

theorem trim (h : Walk html s s₁) : Walk (Text.trim html) s s₁ := by
  obtain ⟨ts, hts, ho⟩ := h
  exact ⟨ts, (visibleTags?_trim html).trans hts, ho⟩

theorem of_tags {ts : List Tag} (h : tags? html = some ts) (hopen : openAfter? ts s = some s₁) :
    Walk html s s₁ :=
  ⟨ts, visibleTags?_of_tags? h, hopen⟩

theorem start {name : Text} {as : List Attribute} (h : tags? html = some [.start name as])
    (hname : isElement name = true) (s : List Text) : Walk html s (name :: s) :=
  of_tags h (openAfter?_start hname as [] s)

theorem stop {name : Text} (h : tags? html = some [.stop name]) (s : List Text) :
    Walk html (name :: s) s :=
  of_tags h (openAfter?_stop name [] s)

theorem of_append_stop {name : Text} {ts : List Tag} (h : Walk (a ++ b) s s₁)
    (ha : tags? a = some ts) (hb : tags? b = some [.stop name]) : Walk a s (name :: s₁) := by
  obtain ⟨us, hus, ho⟩ := h
  rw [visibleTags?_append (visibleTags?_of_tags? ha) (visibleTags?_of_tags? hb)] at hus
  obtain rfl := Option.some.inj hus
  rw [openAfter?_append] at ho
  obtain ⟨s₂, hs₂, hstop⟩ := Option.bind_eq_some_iff.1 ho
  suffices hinside : s₂ = name :: s₁ from of_tags ha (hinside ▸ hs₂)
  cases s₂ with
  | nil => cases hstop
  | cons other outer =>
    by_cases hother : other = name
    · subst hother
      rw [openAfter?_stop] at hstop
      rw [Option.some.inj hstop]
    · simp [openAfter?, Tag.after?, hother] at hstop

end Walk

theorem isNested_of_walk {html : Text} (h : Walk html [] []) : isNested html = true := by
  obtain ⟨ts, hts, ho⟩ := h
  simp [isNested, hts, ho]

example : isNested "<p>a<br />b</p>" = true ∧ isNested "<p><em>a</p></em>" = false := by decide

namespace Balanced

variable {a b html : Text}

theorem of_isPlain (h : isPlain html = true) : Balanced html :=
  fun _ => Walk.of_tags (tags?_of_isPlain h) rfl

theorem nil : Balanced [] := of_isPlain rfl

theorem append (ha : Balanced a) (hb : Balanced b) : Balanced (a ++ b) :=
  fun s => (ha s).append (hb s)

theorem trim (h : Balanced html) : Balanced (Text.trim html) := fun s => (h s).trim

theorem of_void {name : Text} {as : List Attribute} (h : tags? html = some [.start name as])
    (hname : voidNames.contains name = true) : Balanced html :=
  fun s => Walk.of_tags h (openAfter?_void hname as [] s)

theorem of_element {name : Text} {as : List Attribute}
    (h : tags? html = some [.start name as, .stop name]) (hname : isElement name = true) :
    Balanced html := by
  intro s
  refine Walk.of_tags h ?_
  rw [openAfter?_start hname]
  exact openAfter?_stop name [] s

end Balanced

end Galley.Html
