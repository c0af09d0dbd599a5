import Galley.Markdown.Cursor
import Galley.Proofs.Text

/-!
# Facts on lines of markup

What is decided by the first line of a text, and where a cursor stands behind it.
-/

namespace Galley.Markdown

/-! ## Cutting a line off -/

theorem cutLine_of_not_mem {s : Text} (h : '\n' ∉ s) : cutLine s = (s, []) := by
  induction s with
  | nil => rfl
  | cons c s ih =>
    rw [List.mem_cons, not_or] at h
    rw [cutLine, if_neg (Ne.symm h.1), ih h.2]

theorem cutLine_append_newline {s : Text} (h : '\n' ∉ s) (t : Text) :
    cutLine (s ++ '\n' :: t) = (s ++ ['\n'], t) := by
  induction s with
  | nil => rfl
  | cons c s ih =>
    rw [List.mem_cons, not_or] at h
    rw [List.cons_append, cutLine, if_neg (Ne.symm h.1), ih h.2]
    rfl

theorem lines_eq_cutLine {s : Text} (h : s ≠ []) :
    Text.lines s = (cutLine s).1 :: Text.lines (cutLine s).2 := by
  by_cases hs : '\n' ∈ s
  · obtain ⟨line, rest, rfl, hline⟩ := List.eq_append_cons_of_mem hs
    rw [cutLine_append_newline hline, Text.lines_append_newline hline]
  · rw [cutLine_of_not_mem hs, Text.lines_of_not_mem hs h]
    rfl

theorem eq_nil_or_newline_of_lines {s line : Text} {before after : List Text}
    (h : Text.lines s = before ++ line :: after) : after = [] ∨ ∃ t, line = t ++ ['\n'] := by
  induction before generalizing s with
  | nil =>
    by_cases hs : '\n' ∈ s
    · obtain ⟨t, rest, rfl, ht⟩ := List.eq_append_cons_of_mem hs
      rw [Text.lines_append_newline ht] at h
      exact .inr ⟨t, (List.cons.inj h).1.symm⟩
    · have hne : s ≠ [] := by
        rintro rfl
        cases h
      rw [Text.lines_of_not_mem hs hne] at h
      exact .inl (List.cons.inj h).2.symm
  | cons earlier before ih =>
    have hne : s ≠ [] := by
      rintro rfl
      cases h
    rw [lines_eq_cutLine hne] at h
    exact ih (List.cons.inj h).2

theorem length_cutLine_lt {s : Text} (h : s ≠ []) : (cutLine s).2.length < s.length := by
  cases s with
  | nil => exact absurd rfl h
  | cons c s =>
    have hlength := congrArg List.length (cutLine_append (c :: s))
    rw [List.length_append] at hlength
    have hline : 0 < (cutLine (c :: s)).1.length := by
      rw [cutLine]
      split <;> simp
    omega

/-! ## What the first line decides -/

theorem drop_runLength (c : Char) (s : Text) : s.drop (runLength c s) = s.dropWhile (· == c) := by
  have hsplit := List.takeWhile_append_dropWhile (p := (· == c)) (l := s)
  have hdrop := congrArg (List.drop (runLength c s)) hsplit
  rw [runLength, List.drop_left] at hdrop
  exact hdrop.symm

theorem runLength_replicate_append {mark : Char} (n : Nat) {s : Text} (h : s.head? ≠ some mark) :
    runLength mark (List.replicate n mark ++ s) = n := by
  rw [runLength, List.takeWhile_append_of_pos (by simp)]
  cases s with
  | nil => simp
  | cons c s =>
    have hc : c ≠ mark := fun hc => h (congrArg some hc)
    simp [hc]

section firstLine

variable {p : Char → Bool} (s : Text)

theorem takeWhile_cutLine (hp : p '\n' = false) : (cutLine s).1.takeWhile p = s.takeWhile p := by
  induction s with
  | nil => rfl
  | cons c s ih =>
    rw [cutLine]
    split
    · next hc => simp [hc, hp]
    · simp [List.takeWhile_cons, ih]

theorem cutLine_dropWhile (hp : p '\n' = false) :
    cutLine (s.dropWhile p) = ((cutLine s).1.dropWhile p, (cutLine s).2) := by
  induction s with
  | nil => rfl
  | cons c s ih =>
    by_cases hc : c = '\n'
    · simp [cutLine, hc, hp]
    · cases hpc : p c with
      | true => simp [cutLine, hc, hpc, ih]
      | false => simp [cutLine, hc, hpc]

variable {mark : Char} (hmark : mark ≠ '\n')
include hmark

theorem runLength_cutLine : runLength mark (cutLine s).1 = runLength mark s := by
  rw [runLength, takeWhile_cutLine s (by simpa using Ne.symm hmark), runLength]

theorem cutLine_drop_runLength :
    cutLine (s.drop (runLength mark s)) =
      ((cutLine s).1.drop (runLength mark s), (cutLine s).2) := by
  rw [drop_runLength, cutLine_dropWhile s (by simpa using Ne.symm hmark), ← drop_runLength,
    runLength_cutLine s hmark]

end firstLine

theorem isBlank_of_isSpacing {c : Char} (h : isSpacing c = true) : Text.isBlank c = true := by
  simp only [isSpacing, isGap, isEnding, Bool.or_eq_true, decide_eq_true_eq] at h
  rcases h with (((rfl | rfl) | rfl) | rfl) | rfl | rfl <;> decide

theorem isSome_afterEnding?_cons (c : Char) (s : Text) :
    (afterEnding? (c :: s)).isSome = isEnding c := by
  unfold afterEnding?
  split
  · next h => cases h
  · next h =>
    cases h
    rfl
  · next h =>
    cases h
    rfl
  · next h =>
    cases h
    rfl
  · next hnewline hpair hreturn =>
    have hn : c ≠ '\n' := by
      rintro rfl
      exact hnewline s rfl
    have hr : c ≠ '\r' := by
      rintro rfl
      exact hreturn s rfl
    simp [isEnding, hn, hr]

theorem isSome_afterEnding?_cutLine (s : Text) :
    (afterEnding? (cutLine s).1).isSome = (afterEnding? s).isSome := by
  cases s with
  | nil => rfl
  | cons c s =>
    rw [cutLine]
    split <;> simp only [isSome_afterEnding?_cons]

theorem isSome_afterEnding?_of_head {s : Text} (h : s.head?.all isEnding = true) :
    (afterEnding? s).isSome = true := by
  cases s with
  | nil => rfl
  | cons c s =>
    rw [isSome_afterEnding?_cons]
    exact h

theorem dropWhile_of_head {p : Char → Bool} {s : Text} (h : s.head?.all isEnding = true)
    (hreturn : p '\r' = false) (hnewline : p '\n' = false) : s.dropWhile p = s := by
  cases s with
  | nil => rfl
  | cons c s =>
    have hc : p c = false := by
      have hending : isEnding c = true := h
      simp only [isEnding, Bool.or_eq_true, decide_eq_true_eq] at hending
      rcases hending with rfl | rfl
      · exact hnewline
      · exact hreturn
    simp [hc]

theorem isBlankLine_cutLine (s : Text) : isBlankLine (cutLine s).1 = isBlankLine s := by
  have hline : (cutLine s).1.dropWhile isGap = (cutLine (s.dropWhile isGap)).1 := by
    rw [cutLine_dropWhile s (by decide)]
  unfold isBlankLine afterBlank?
  rw [hline, isSome_afterEnding?_cutLine]

/-! ## Cursors -/

namespace Cursor

theorem jumpTo_of_append {c : Cursor} {before rest : Text} (h : c.rest = before ++ rest) :
    c.jumpTo rest = ofLine rest (c.offset + Text.byteLength before) := by
  unfold jumpTo newLine skip
  rw [h]
  simp

theorem indent_of_not_blank {c : Cursor} (n : Nat) (hpending : c.pending = 0)
    (hspace : c.rest.head? ≠ some ' ') (htab : c.rest.head? ≠ some '\t') : c.indent n = (0, c) := by
  have hnone : ∀ fuel, useColumns fuel n c = (n, c) := by
    intro fuel
    cases fuel with
    | zero => rfl
    | succ fuel =>
      unfold useColumns
      by_cases hn : n = 0
      · rw [if_pos hn, hn]
      · rw [if_neg hn, if_neg (not_not_intro hpending)]
        split
        · next h => simp [h] at hspace
        · next h => simp [h] at htab
        · rfl
  unfold indent
  rw [hnone]
  simp

end Cursor

end Galley.Markdown
