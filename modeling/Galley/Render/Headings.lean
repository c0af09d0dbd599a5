import Galley.Slug
import Galley.Toc.Entry

/-!
# Headings

A heading is collected from its start to its end, as plain text for its id and title and as HTML
for the page. Its id is the explicit one or else the slug of its text, with a number behind it if
the slug was used before. Each completed heading leaves an entry for the table of contents.
-/

namespace Galley.Render

/-- A heading whose end has not been seen. -/
structure OpenHeading where
  level : Nat
  explicitId : Option Text
  line : Option Nat
  /-- Its plain text so far. -/
  text : Text := []
  /-- Its HTML so far. -/
  html : Text := []
deriving DecidableEq, Repr

/-- The base of the id of a heading: the id it was given, or the slug of its text. -/
def OpenHeading.baseId (h : OpenHeading) : Text := h.explicitId.getD (slug h.text)

/-- A heading whose end has been seen. -/
structure Heading where
  level : Nat
  id : Text
  line : Option Nat
  html : Text
deriving DecidableEq, Repr

/-- How often each base of an id was used, in the order of first use. -/
abbrev IdCounts := List (Text × Nat)

namespace IdCounts

def uses (counts : IdCounts) (id : Text) : Nat := (counts.lookup id).getD 0

def use : IdCounts → Text → IdCounts
  | [], id => [(id, 1)]
  | (key, n) :: counts, id =>
    if key = id then (key, n + 1) :: counts else (key, n) :: use counts id

@[simp] theorem uses_use_self (counts : IdCounts) (id : Text) :
    uses (use counts id) id = uses counts id + 1 := by
  induction counts with
  | nil => simp [use, uses, List.lookup_nil]
  | cons head counts ih =>
    obtain ⟨key, n⟩ := head
    by_cases h : key = id
    · simp [use, uses, h]
    · have h' : (id == key) = false := by simpa using Ne.symm h
      simpa [use, uses, List.lookup_cons, h, h'] using ih

theorem uses_use_of_ne (counts : IdCounts) {id other : Text} (hne : other ≠ id) :
    uses (use counts id) other = uses counts other := by
  induction counts with
  | nil =>
    have h : (other == id) = false := by simpa using hne
    simp [use, uses, List.lookup_cons, h]
  | cons head counts ih =>
    obtain ⟨key, n⟩ := head
    by_cases h : key = id
    · subst h
      have h' : (other == key) = false := by simpa using hne
      simp [use, uses, List.lookup_cons, h']
    · by_cases h' : other = key
      · simp [use, uses, h, h']
      · have h'' : (other == key) = false := by simpa using h'
        simpa [use, uses, List.lookup_cons, h, h''] using ih

end IdCounts

/-- The open heading, the entries recorded so far, and the ids in use. -/
structure Headings where
  opened : Option OpenHeading := none
  toc : List Toc.Entry := []
  ids : IdCounts := []
deriving DecidableEq, Repr

namespace Headings

/-- Starts a heading, in place of one that is still open. -/
def start (hs : Headings) (level : Nat) (explicitId : Option Text) (line : Option Nat) :
    Headings :=
  { hs with opened := some { level, explicitId, line } }

def isOpen (hs : Headings) : Bool := hs.opened.isSome

def pushText (hs : Headings) (text : Text) : Headings :=
  { hs with opened := hs.opened.map fun h => { h with text := h.text ++ text } }

def pushHtml (hs : Headings) (html : Text) : Headings :=
  { hs with opened := hs.opened.map fun h => { h with html := h.html ++ html } }

/-- The id of a heading. A slug that was used `n` times before gets the suffix `-n`. -/
def idOf (ids : IdCounts) (h : OpenHeading) : Text :=
  match h.explicitId with
  | some id => id
  | none =>
    let base := slug h.text
    match ids.uses base with
    | 0 => base
    | n + 1 => base ++ "-" ++ Text.ofNat (n + 1)

/-- Completes the open heading and records its entry. -/
def complete (hs : Headings) : Option (Heading × Headings) :=
  hs.opened.map fun h =>
    let id := idOf hs.ids h
    ({ level := h.level, id, line := h.line, html := h.html },
      { opened := none
        toc := hs.toc ++ [{ level := h.level, title := Text.trim h.text, id }]
        ids := hs.ids.use h.baseId })

end Headings

end Galley.Render
