import Galley.Text.Blank

/-!
# The front matter block

A document may begin with a block between a line of three dashes and a line of three dashes or
three dots.
-/

namespace Galley.Document

namespace MatterBlock

def delimiter : Text := "---"

/-- Whether a line closes a block. -/
def closes (line : Text) : Bool :=
  let s := Text.trimEnd line
  s = delimiter || s = ("..." : Text)

/-- The lines through the first that closes the block, and the lines after it. -/
def throughClosing? : List Text → Option (List Text × List Text)
  | [] => none
  | line :: lines =>
    if closes line then some ([line], lines)
    else (throughClosing? lines).map fun (block, rest) => (line :: block, rest)

/-- Cuts the markup behind a leading block. -/
def split? (markup : Text) : Option (Text × Text) :=
  match Text.lines markup with
  | [] => none
  | first :: lines =>
    if Text.trimEnd first = delimiter then
      (throughClosing? lines).map fun (block, rest) => (first ++ block.flatten, rest.flatten)
    else none

/-- The byte offset just past a leading block. -/
def end? (markup : Text) : Option Nat := (split? markup).map fun (block, _) => Text.byteLength block

theorem append_of_split? {markup block rest : Text} (h : split? markup = some (block, rest)) :
    block ++ rest = markup := by
  have cut : ∀ lines b r, throughClosing? lines = some (b, r) → b ++ r = lines := by
    intro lines
    induction lines with
    | nil => intro b r h; simp [throughClosing?] at h
    | cons line lines ih =>
      intro b r h
      simp only [throughClosing?] at h
      split at h
      · obtain ⟨rfl, rfl⟩ := by simpa using h
        rfl
      · obtain ⟨⟨b', r'⟩, hb, heq⟩ := Option.map_eq_some_iff.1 h
        obtain ⟨rfl, rfl⟩ := by simpa using heq
        simp [ih _ _ hb]
  unfold split? at h
  split at h
  · simp at h
  · next first lines hl =>
    split at h
    · obtain ⟨⟨b, r⟩, hb, heq⟩ := Option.map_eq_some_iff.1 h
      obtain ⟨rfl, rfl⟩ := by simpa using heq
      rw [List.append_assoc, ← List.flatten_append, cut _ _ _ hb, ← List.flatten_cons, ← hl,
        Text.flatten_lines]
    · simp at h

end MatterBlock

end Galley.Document
