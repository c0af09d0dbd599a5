import Galley.Document.AutoToc
import Galley.Proofs.LineIndex

/-!
# Lines around an inserted table of contents

A marker goes to the start of a document, behind its front matter block, or to its end if the block
ends there without a newline. In each case the lines of the changed document map back to those of
the given one: an offset that moved keeps its line, and the inserted text belongs to one line.
-/

namespace Galley

theorem Text.exists_eq_append_newline {s : Text} (before : List Text) {line next : Text}
    {after : List Text} (h : Text.lines s = before ++ line :: next :: after) :
    ∃ t, line = t ++ ['\n'] := by
  induction s generalizing before line with
  | nil => exact absurd h.symm (List.append_ne_nil_of_right_ne_nil before (List.cons_ne_nil _ _))
  | cons c s ih =>
    rw [Text.lines] at h
    split at h
    · next hc =>
      cases before with
      | nil =>
        obtain ⟨rfl, -⟩ := List.cons.inj h
        exact ⟨[], by rw [hc]; rfl⟩
      | cons first before => exact ih before (List.cons.inj h).2
    · cases hlines : Text.lines s with
      | nil =>
        rw [hlines] at h
        have hlength := congrArg List.length h
        simp [Text.consHead] at hlength
        omega
      | cons first lines =>
        rw [hlines] at h
        cases before with
        | nil =>
          obtain ⟨rfl, rfl⟩ := List.cons.inj h
          obtain ⟨t, rfl⟩ := ih [] hlines
          exact ⟨c :: t, rfl⟩
        | cons _ before =>
          obtain ⟨-, rfl⟩ := List.cons.inj h
          exact ih (first :: before) hlines

namespace Document

open Text (byteLength newlinesBefore)

namespace MatterBlock

theorem exists_of_throughClosing? {lines block rest : List Text}
    (h : throughClosing? lines = some (block, rest)) :
    ∃ before line, block = before ++ [line] ∧ lines = before ++ line :: rest := by
  induction lines generalizing block with
  | nil => cases h
  | cons line lines ih =>
    rw [throughClosing?] at h
    split at h
    · obtain ⟨rfl, rfl⟩ := Prod.mk.inj (Option.some.inj h)
      exact ⟨[], line, rfl, rfl⟩
    · obtain ⟨⟨b, r⟩, hclosing, heq⟩ := Option.map_eq_some_iff.1 h
      obtain ⟨rfl, rfl⟩ := Prod.mk.inj heq
      obtain ⟨before, last, rfl, rfl⟩ := ih hclosing
      exact ⟨line :: before, last, rfl, rfl⟩

theorem rest_eq_nil_of_split? {markup block rest : Text} (h : split? markup = some (block, rest))
    (hblock : Text.hasSuffix "\n" block = false) : rest = [] := by
  unfold split? at h
  split at h
  · cases h
  · next first lines hlines =>
    split at h
    · obtain ⟨⟨b, r⟩, hclosing, heq⟩ := Option.map_eq_some_iff.1 h
      obtain ⟨rfl, rfl⟩ := Prod.mk.inj heq
      obtain ⟨before, line, rfl, rfl⟩ := exists_of_throughClosing? hclosing
      cases r with
      | nil => rfl
      | cons next r =>
        obtain ⟨t, rfl⟩ := Text.exists_eq_append_newline (first :: before) hlines
        have hsuffix : Text.hasSuffix "\n" (first ++ (before ++ [t ++ ['\n']]).flatten) = true := by
          rw [Text.hasSuffix, Option.isSome_iff_exists]
          exact ⟨first ++ before.flatten ++ t, Text.dropSuffix?_eq_some_iff.2 (by simp)⟩
        rw [hsuffix] at hblock
        cases hblock
    · cases h

end MatterBlock

namespace AutoToc

def markerOffset (markup : Text) : Nat :=
  if Text.hasPrefix MatterBlock.delimiter markup then (MatterBlock.end? markup).getD 0 else 0

/-- The places of a marker: what stands before it, what is inserted, and what stands after it. -/
inductive Placement : Text → Text → Text → Prop
  | atStart (markup : Text) : Placement [] marker markup
  | behindBlock {block : Text} (rest : Text) (h : Text.hasSuffix "\n" block = true) :
    Placement block ("\n" ++ marker) rest
  | atEnd {block : Text} (h : Text.hasSuffix "\n" block = false) :
    Placement block ("\n\n" ++ marker) []

theorem Placement.exists_eq_append_newline {before inserted after : Text}
    (h : Placement before inserted after) : ∃ t, inserted = t ++ ['\n'] := by
  cases h with
  | atStart => exact ⟨"[TOC]: # ''\n  ", rfl⟩
  | behindBlock => exact ⟨"\n[TOC]: # ''\n  ", rfl⟩
  | atEnd => exact ⟨"\n\n[TOC]: # ''\n  ", rfl⟩

theorem exists_placement (markup : Text) : ∃ before inserted after,
    Placement before inserted after ∧ byteLength before = markerOffset markup ∧
      markup = before ++ after ∧
      place markup = (before ++ inserted ++ after,
        ⟨before.count '\n' + 1, inserted.count '\n'⟩) := by
  unfold place markerOffset MatterBlock.end?
  by_cases hprefix : Text.hasPrefix MatterBlock.delimiter markup = true
  · rw [if_pos hprefix, if_pos hprefix]
    cases hsplit : MatterBlock.split? markup with
    | none => exact ⟨[], marker, markup, .atStart markup, rfl, rfl, rfl⟩
    | some cut =>
      obtain ⟨block, rest⟩ := cut
      have hmarkup := (MatterBlock.append_of_split? hsplit).symm
      cases hblock : Text.hasSuffix "\n" block with
      | true =>
        refine ⟨block, "\n" ++ marker, rest, .behindBlock rest hblock, rfl, hmarkup, ?_⟩
        simp only [afterBlock, hblock]
        rfl
      | false =>
        obtain rfl := MatterBlock.rest_eq_nil_of_split? hsplit hblock
        refine ⟨block, "\n\n" ++ marker, [], .atEnd hblock, rfl, hmarkup, ?_⟩
        simp only [afterBlock, hblock]
        rfl
  · rw [if_neg hprefix, if_neg hprefix]
    exact ⟨[], marker, markup, .atStart markup, rfl, rfl, rfl⟩

end AutoToc

/-! ## Mapping lines back -/

/-- The insertion of `n` bytes at the offset `p` of `markup` maps the lines of the changed text
back: an offset keeps its line, and the inserted text belongs to one line. -/
structure Insertion.Agrees (insertion : Insertion) (markup changed : Text) (p n : Nat) : Prop where
  kept : ∀ o ≤ byteLength markup,
    insertion.originalLine ((LineIndex.ofText changed).lineOf (if o < p then o else o + n)) =
      (LineIndex.ofText markup).lineOf o
  inserted : ∀ o, p ≤ o → o < p + n →
    insertion.originalLine ((LineIndex.ofText changed).lineOf o) = insertion.line

theorem Insertion.agrees_of_append (before text after : Text) :
    Insertion.Agrees ⟨before.count '\n' + 1, (text ++ ['\n']).count '\n'⟩ (before ++ after)
      (before ++ (text ++ ['\n']) ++ after) (byteLength before) (byteLength (text ++ ['\n'])) := by
  have hcount : 0 < (text ++ ['\n']).count '\n' := by simp
  constructor
  · intro o ho
    simp only [LineIndex.lineOf_ofText, List.append_assoc before]
    split
    · next hlt =>
      have hle := Text.newlinesBefore_le_count o before
      rw [Text.newlinesBefore_append_of_lt hlt, Text.newlinesBefore_append_of_lt hlt]
      simp only [Insertion.originalLine]
      split
      · rfl
      · split <;> omega
    · next hge =>
      obtain ⟨d, rfl⟩ := Nat.exists_eq_add_of_le (Nat.le_of_not_lt hge)
      have hoffset : byteLength before + d + byteLength (text ++ ['\n']) =
          byteLength before + (byteLength (text ++ ['\n']) + d) := by omega
      rw [hoffset, Text.newlinesBefore_append_add, Text.newlinesBefore_append_add,
        Text.newlinesBefore_append_add]
      simp only [Insertion.originalLine]
      split
      · omega
      · split <;> omega
  · intro o hge hlt
    obtain ⟨d, rfl⟩ := Nat.exists_eq_add_of_le hge
    have hd : d < byteLength (text ++ ['\n']) := by omega
    have hless := Text.newlinesBefore_lt_count hd
    rw [LineIndex.lineOf_ofText, List.append_assoc before, Text.newlinesBefore_append_add,
      Text.newlinesBefore_append_of_lt hd]
    simp only [Insertion.originalLine]
    split
    · omega
    · split <;> omega

/-- The lines of a document with an inserted marker map back to those of the document, wherever the
marker stands. -/
theorem AutoToc.insert_agrees {auto : AutoToc} {markup changed : Text} {presentation : Bool}
    {folder : Option Text} {insertion : Insertion}
    (h : auto.insert markup presentation folder = (changed, some insertion)) :
    ∃ before inserted after, Placement before inserted after ∧
      byteLength before = markerOffset markup ∧ markup = before ++ after ∧
      changed = before ++ inserted ++ after ∧
      insertion.Agrees markup changed (byteLength before) (byteLength inserted) := by
  obtain ⟨before, inserted, after, hplacement, hoffset, hmarkup, hplace⟩ := exists_placement markup
  obtain ⟨text, rfl⟩ := hplacement.exists_eq_append_newline
  unfold AutoToc.insert at h
  split at h
  · rw [hplace] at h
    obtain ⟨rfl, heq⟩ := Prod.mk.inj h
    obtain rfl := Option.some.inj heq
    refine ⟨before, text ++ ['\n'], after, hplacement, hoffset, hmarkup, rfl, ?_⟩
    rw [hmarkup]
    exact Insertion.agrees_of_append before text after
  · cases (Prod.mk.inj h).2

/-- A block that ends the document without a newline. -/
theorem AutoToc.insert_agrees_atEnd :
    (⟨true, []⟩ : AutoToc).insert "---\na: #\n---" false none =
      (("---\na: #\n---\n\n[TOC]: # ''\n  \n" : Text), some ⟨3, 4⟩) ∧
    ∃ before inserted after, Placement before inserted after ∧
      byteLength before = markerOffset "---\na: #\n---" ∧
      "---\na: #\n---" = before ++ after ∧
      "---\na: #\n---\n\n[TOC]: # ''\n  \n" = before ++ inserted ++ after ∧
      Insertion.Agrees ⟨3, 4⟩ "---\na: #\n---" "---\na: #\n---\n\n[TOC]: # ''\n  \n"
        (byteLength before) (byteLength inserted) := by
  have h : (⟨true, []⟩ : AutoToc).insert "---\na: #\n---" false none =
      (("---\na: #\n---\n\n[TOC]: # ''\n  \n" : Text), some ⟨3, 4⟩) := by decide
  exact ⟨h, insert_agrees h⟩

end Document

end Galley
