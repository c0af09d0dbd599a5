import Galley.Proofs.Document.Lines

/-!
# Carriage returns and hard breaks

A document can have a carriage return in front of every newline. The front matter block is then
found as before, but the blanks of a hard break come between the carriage return and the newline,
and each of the two is a line ending of its own for the reader of Markdown. So it matters whether
hard breaks are made before or after the carriage returns are added, unless no newline stands behind
the front matter block (`hardLineBreaks_withReturns`).
-/

namespace Galley

namespace Text

variable {s t line : Text}

/-! ## Lines with carriage returns -/

/-- The text with a carriage return in front of every newline. -/
def withReturns (s : Text) : Text := replace "\n" "\r\n" s

theorem withReturns_append (s t : Text) : withReturns (s ++ t) = withReturns s ++ withReturns t :=
  replace_singleton_append s t

theorem withReturns_of_not_mem (h : '\n' ∉ s) : withReturns s = s := replace_singleton_of_not_mem h

theorem withReturns_cons_newline (s : Text) :
    withReturns ('\n' :: s) = '\r' :: '\n' :: withReturns s :=
  replace_singleton_cons_self s

theorem withReturns_cons_of_ne {c : Char} (hc : c ≠ '\n') (s : Text) :
    withReturns (c :: s) = c :: withReturns s :=
  replace_singleton_cons_of_ne hc s

theorem replace_replace_singleton {c : Char} {r : Text} (inner s : Text) :
    replace [c] r (replace [c] inner s) = replace [c] (replace [c] r inner) s := by
  simp only [replace_singleton, List.flatMap_assoc]
  congr 1
  funext d
  split
  · rfl
  · next hd => simp [hd]

theorem lines_withReturns (s : Text) : lines (withReturns s) = (lines s).map withReturns := by
  induction s using lineInduction with
  | nil => rfl
  | last t ht hne =>
    rw [withReturns_of_not_mem ht, lines_of_not_mem ht hne, List.map_singleton,
      withReturns_of_not_mem ht]
  | line t rest ht ih =>
    have hcut : withReturns (t ++ '\n' :: rest) = (t ++ ['\r']) ++ '\n' :: withReturns rest := by
      rw [withReturns_append, withReturns_of_not_mem ht, withReturns_cons_newline,
        List.append_assoc, List.singleton_append]
    have hreturn : '\n' ∉ t ++ ['\r'] := by simpa using ht
    rw [hcut, lines_append_newline hreturn, lines_append_newline ht, List.map_cons, ih,
      withReturns_append, withReturns_of_not_mem ht, List.append_assoc]
    rfl

theorem flatten_map_withReturns (ts : List Text) :
    (ts.map withReturns).flatten = withReturns ts.flatten := by
  induction ts with
  | nil => rfl
  | cons t ts ih => rw [List.map_cons, List.flatten_cons, ih, List.flatten_cons, withReturns_append]

theorem trimEnd_withReturns (h : line ∈ lines s) : trimEnd (withReturns line) = trimEnd line := by
  obtain ⟨t, ht, rfl | rfl⟩ := exists_of_mem_lines h
  · rw [withReturns_of_not_mem ht]
  · rw [withReturns_append, withReturns_of_not_mem ht, trimEnd, trimEnd,
      dropEndWhile_append_of_all t (by decide), dropEndWhile_append_of_all t (by decide)]

end Text

namespace Document

open Text (withReturns)

namespace MatterBlock

/-! ## The front matter block -/

theorem throughClosing?_map {f : Text → Text} {lines : List Text}
    (h : ∀ line ∈ lines, closes (f line) = closes line) :
    throughClosing? (lines.map f) =
      (throughClosing? lines).map fun (block, rest) => (block.map f, rest.map f) := by
  induction lines with
  | nil => rfl
  | cons line lines ih =>
    rw [List.forall_mem_cons] at h
    rw [List.map_cons, throughClosing?, throughClosing?, h.1, ih h.2]
    split
    · rfl
    · rw [Option.map_map, Option.map_map]
      rfl

theorem split?_withReturns (markup : Text) :
    split? (withReturns markup) =
      (split? markup).map fun (block, rest) => (withReturns block, withReturns rest) := by
  have htrim := fun line (h : line ∈ Text.lines markup) => Text.trimEnd_withReturns h
  unfold split?
  rw [Text.lines_withReturns]
  cases hlines : Text.lines markup with
  | nil => rfl
  | cons first lines =>
    rw [hlines, List.forall_mem_cons] at htrim
    have hcloses : ∀ line ∈ lines, closes (withReturns line) = closes line := by
      intro line hline
      unfold closes
      rw [htrim.2 line hline]
    simp only [List.map_cons, htrim.1, throughClosing?_map hcloses]
    split
    · rw [Option.map_map, Option.map_map]
      congr 1
      funext ⟨block, rest⟩
      simp [Text.withReturns_append, Text.flatten_map_withReturns]
    · rfl

/-- The front matter block, or nothing, and the body behind it. -/
def cut (markup : Text) : Text × Text := (split? markup).getD ([], markup)

theorem cut_append (markup : Text) : (cut markup).1 ++ (cut markup).2 = markup := by
  unfold cut
  cases h : split? markup with
  | none => rfl
  | some parts => exact append_of_split? h

theorem cut_withReturns (markup : Text) :
    cut (withReturns markup) = (withReturns (cut markup).1, withReturns (cut markup).2) := by
  unfold cut
  rw [split?_withReturns]
  cases split? markup with
  | none => rfl
  | some parts => rfl

end MatterBlock

open MatterBlock (cut)

/-! ## Hard breaks -/

theorem hardLineBreaks_eq (markup : Text) :
    hardLineBreaks markup = (cut markup).1 ++ breakLines (cut markup).2 := by
  unfold hardLineBreaks cut
  cases MatterBlock.split? markup with
  | none => rfl
  | some parts => rfl

theorem breakLines_withReturns (s : Text) :
    breakLines (withReturns s) = Text.replace ['\n'] "\r  \n" s :=
  Text.replace_replace_singleton "\r\n" s

theorem withReturns_breakLines (s : Text) :
    withReturns (breakLines s) = Text.replace ['\n'] "  \r\n" s :=
  Text.replace_replace_singleton "  \n" s

theorem breakLines_withReturns_eq_iff {s : Text} :
    breakLines (withReturns s) = withReturns (breakLines s) ↔ '\n' ∉ s := by
  rw [breakLines_withReturns, withReturns_breakLines]
  constructor
  · intro h hmem
    obtain ⟨before, after, rfl, hbefore⟩ := List.eq_append_cons_of_mem hmem
    rw [Text.replace_singleton_append, Text.replace_singleton_append,
      Text.replace_singleton_of_not_mem hbefore, Text.replace_singleton_of_not_mem hbefore,
      List.append_cancel_left_eq, Text.replace_singleton_cons_self,
      Text.replace_singleton_cons_self] at h
    cases h
  · intro h
    rw [Text.replace_singleton_of_not_mem h, Text.replace_singleton_of_not_mem h]

/-! ## What the reader of Markdown makes of it -/

section endings

open Markdown (countEndings)

variable {s : Text}

theorem countEndings_cons_of_ne {c : Char} (hc : c ≠ '\r') (s : Text) :
    countEndings (c :: s) = countEndings s + if c = '\n' then 1 else 0 := by
  rw [countEndings]
  · simp [Markdown.isEnding, hc]
  · exact fun t heq => absurd heq hc

theorem countEndings_withReturns_append (h : '\r' ∉ s) (t : Text) :
    countEndings (withReturns s ++ t) = s.count '\n' + countEndings t := by
  induction s with
  | nil => exact (Nat.zero_add _).symm
  | cons c s ih =>
    rw [List.mem_cons, not_or] at h
    by_cases hc : c = '\n'
    · rw [hc, Text.withReturns_cons_newline, List.cons_append, List.cons_append, countEndings,
        ih h.2, List.count_cons_self]
      omega
    · rw [Text.withReturns_cons_of_ne hc, List.cons_append, countEndings_cons_of_ne (Ne.symm h.1),
        ih h.2, List.count_cons_of_ne hc, if_neg hc]
      rfl

theorem countEndings_withReturns (h : '\r' ∉ s) : countEndings (withReturns s) = s.count '\n' := by
  have happend := countEndings_withReturns_append h []
  rwa [List.append_nil] at happend

/-- A carriage return that is cut off from its newline ends a line of its own. -/
theorem countEndings_breakLines_withReturns (h : '\r' ∉ s) :
    countEndings (breakLines (withReturns s)) = 2 * s.count '\n' := by
  rw [breakLines_withReturns]
  induction s with
  | nil => rfl
  | cons c s ih =>
    rw [List.mem_cons, not_or] at h
    by_cases hc : c = '\n'
    · have hbroken : ∀ t, countEndings ('\r' :: ' ' :: ' ' :: '\n' :: t) = countEndings t + 2 := by
        intro t
        simp [countEndings, Markdown.isEnding]
      rw [hc, Text.replace_singleton_cons_self, List.count_cons_self, Nat.mul_succ, ← ih h.2]
      exact hbroken _
    · rw [Text.replace_singleton_cons_of_ne hc, countEndings_cons_of_ne (Ne.symm h.1), ih h.2,
        List.count_cons_of_ne hc, if_neg hc]
      rfl

end endings

theorem return_not_mem_hardLineBreaks {markup : Text} (h : '\r' ∉ markup) :
    '\r' ∉ hardLineBreaks markup := by
  rw [← MatterBlock.cut_append markup, List.mem_append, not_or] at h
  rw [hardLineBreaks_eq]
  refine List.not_mem_append h.1 fun hmem => ?_
  rcases Text.mem_of_mem_replace hmem with hbreak | hbody
  · exact absurd hbreak (by decide)
  · exact h.2 hbody

/-- With a carriage return in front of every newline, the front matter block is found as before and
left alone, but behind it the blanks of a hard break come between the two. So making hard breaks and
adding carriage returns can change places exactly if no newline stands behind the block. If the
carriage returns come last, the reader of Markdown finds a line ending for each newline of the
document; if they come first, it finds two for each one behind the block. -/
theorem hardLineBreaks_withReturns (markup : Text) :
    cut (withReturns markup) = (withReturns (cut markup).1, withReturns (cut markup).2) ∧
      hardLineBreaks markup = (cut markup).1 ++ Text.replace ['\n'] "  \n" (cut markup).2 ∧
      hardLineBreaks (withReturns markup) =
        withReturns (cut markup).1 ++ Text.replace ['\n'] "\r  \n" (cut markup).2 ∧
      (hardLineBreaks (withReturns markup) = withReturns (hardLineBreaks markup) ↔
        '\n' ∉ (cut markup).2) ∧
      ('\r' ∉ markup →
        Markdown.countEndings (withReturns (hardLineBreaks markup)) = markup.count '\n' ∧
          Markdown.countEndings (hardLineBreaks (withReturns markup)) =
            markup.count '\n' + (cut markup).2.count '\n') := by
  have hbroken : hardLineBreaks (withReturns markup) =
      withReturns (cut markup).1 ++ breakLines (withReturns (cut markup).2) := by
    rw [hardLineBreaks_eq, MatterBlock.cut_withReturns]
  refine ⟨MatterBlock.cut_withReturns markup, hardLineBreaks_eq markup, ?_, ?_, fun h => ⟨?_, ?_⟩⟩
  · rw [hbroken, breakLines_withReturns]
  · rw [hbroken, hardLineBreaks_eq, Text.withReturns_append, List.append_cancel_left_eq,
      breakLines_withReturns_eq_iff]
  · rw [countEndings_withReturns (return_not_mem_hardLineBreaks h), count_hardLineBreaks]
  · have hparts := MatterBlock.cut_append markup
    rw [← hparts, List.mem_append, not_or] at h
    have hcount : markup.count '\n' = (cut markup).1.count '\n' + (cut markup).2.count '\n' := by
      rw [← List.count_append, hparts]
    rw [hbroken, countEndings_withReturns_append h.1, countEndings_breakLines_withReturns h.2,
      hcount]
    omega

/-- A document with front matter and two lines behind it. -/
def titledLines : Text := "---\na: b\n---\nx\ny"

theorem hardLineBreaks_withReturns_titledLines :
    cut (withReturns titledLines) =
        (("---\r\na: b\r\n---\r\n" : Text), ("x\r\ny" : Text)) ∧
      hardLineBreaks titledLines = "---\na: b\n---\nx  \ny" ∧
      hardLineBreaks (withReturns titledLines) = "---\r\na: b\r\n---\r\nx\r  \ny" ∧
      hardLineBreaks (withReturns titledLines) ≠ withReturns (hardLineBreaks titledLines) ∧
      '\r' ∉ titledLines ∧
      Markdown.countEndings (withReturns (hardLineBreaks titledLines)) = 4 ∧
      Markdown.countEndings (hardLineBreaks (withReturns titledLines)) = 5 := by
  have hreturn : '\r' ∉ titledLines := by decide
  have hcut : cut titledLines = (("---\na: b\n---\n" : Text), ("x\ny" : Text)) := by
    decide
  obtain ⟨hblock, hplain, hbroken, hsame, hendings⟩ := hardLineBreaks_withReturns titledLines
  obtain ⟨hone, htwo⟩ := hendings hreturn
  rw [hcut] at hblock hplain hbroken hsame htwo
  exact ⟨hblock.trans (by decide), hplain.trans (by decide), hbroken.trans (by decide),
    fun h => absurd (hsame.1 h) (by decide), hreturn, hone.trans (by decide),
    htwo.trans (by decide)⟩

/-- The blanks of a hard break do not stand before the whole line ending. -/
theorem hardLineBreaks_withReturns_twoLines :
    '\r' ∉ ("a\nb" : Text) ∧ hardLineBreaks (withReturns "a\nb") = "a\r  \nb" ∧
      withReturns (hardLineBreaks "a\nb") = "a  \r\nb" ∧
      hardLineBreaks (withReturns "a\nb") ≠ withReturns (hardLineBreaks "a\nb") := by
  decide

end Document

end Galley
