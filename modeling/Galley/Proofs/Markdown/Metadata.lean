import Galley.Markdown.Leaf
import Galley.Proofs.LineIndex
import Galley.Proofs.Markdown.Line

/-!
# Metadata, line by line

Whether metadata begins and where it ends is decided by the lines of the text: the first line opens
it, the second is neither blank nor its end, and the first line among the others that closes it is
the last one of the block.
-/

namespace Galley.Markdown

/-! ## The lines of a block -/

theorem isSome_afterMetadata? (s : Text) :
    (afterMetadata? s).isSome =
      ((runLength '-' s = 3 || runLength '.' s = 3) &&
        (afterEnding? ((s.drop 3).dropWhile (· = ' '))).isSome) := by
  unfold afterMetadata?
  by_cases hmarks : (decide (runLength '-' s = 3) || decide (runLength '.' s = 3)) = true
  · rw [if_pos hmarks, hmarks, Bool.true_and]
    by_cases hending : (afterEnding? ((s.drop 3).dropWhile (· = ' '))).isSome = true
    · simp only [hending]
      rfl
    · simp only [Bool.eq_false_iff.2 hending]
      rfl
  · rw [if_neg hmarks, Bool.eq_false_iff.2 hmarks]
    rfl

theorem isSome_afterMetadata?_cutLine (s : Text) :
    (afterMetadata? (cutLine s).1).isSome = (afterMetadata? s).isSome := by
  have hrest {mark : Char} (hmark : mark ≠ '\n') (hrun : runLength mark s = 3) :
      (afterEnding? (((cutLine s).1.drop 3).dropWhile (· = ' '))).isSome =
        (afterEnding? ((s.drop 3).dropWhile (· = ' '))).isSome := by
    have hdrop : (cutLine s).1.drop 3 = (cutLine (s.drop 3)).1 := by
      rw [← hrun, cutLine_drop_runLength s hmark]
    have hspaces : (cutLine (s.drop 3)).1.dropWhile (· = ' ') =
        (cutLine ((s.drop 3).dropWhile (· = ' '))).1 := by
      rw [cutLine_dropWhile _ (by decide)]
    rw [hdrop, hspaces, isSome_afterEnding?_cutLine]
  rw [isSome_afterMetadata?, isSome_afterMetadata?, runLength_cutLine s (by decide),
    runLength_cutLine s (by decide)]
  by_cases hdashes : runLength '-' s = 3
  · rw [hrest (by decide) hdashes]
  · by_cases hdots : runLength '.' s = 3
    · rw [hrest (by decide) hdots]
    · simp [hdashes, hdots]

theorem metadataCloses_eq_any {fuel : Nat} {s : Text} (h : s.length < fuel) :
    metadataCloses fuel s = (Text.lines s).any fun line => (afterMetadata? line).isSome := by
  induction fuel generalizing s with
  | zero => omega
  | succ fuel ih =>
    rw [metadataCloses]
    by_cases hs : s = []
    · subst hs
      rfl
    · have hrest : (cutLine s).2.length < fuel := by
        have hlength := length_cutLine_lt hs
        omega
      have hempty : s.isEmpty = false := by simpa using hs
      rw [ih hrest, lines_eq_cutLine hs, List.any_cons, isSome_afterMetadata?_cutLine, hempty]
      rfl

theorem afterMetadata?_marks {mark : Char} (hmark : mark = '-' ∨ mark = '.') (spaces : Nat)
    {s : Text} (h : s.head?.all isEnding = true) :
    afterMetadata? (List.replicate 3 mark ++ (List.replicate spaces ' ' ++ s)) = some s := by
  have hspaces : (List.replicate spaces ' ' ++ s).dropWhile (· = ' ') = s := by
    rw [List.dropWhile_append_of_pos (by simp), dropWhile_of_head h (by decide) (by decide)]
  have hstop : (List.replicate spaces ' ' ++ s).head? ≠ some mark := by
    cases spaces with
    | zero =>
      cases s with
      | nil => simp
      | cons c s =>
        rintro ⟨⟩
        rcases hmark with rfl | rfl
        · cases h
        · cases h
    | succ spaces => rcases hmark with rfl | rfl <;> simp [List.replicate_succ]
  have hrun := runLength_replicate_append 3 hstop
  have hmarks : (decide (runLength '-' (List.replicate 3 mark ++
      (List.replicate spaces ' ' ++ s)) = 3) || decide (runLength '.' (List.replicate 3 mark ++
      (List.replicate spaces ' ' ++ s)) = 3)) = true := by
    rw [Bool.or_eq_true, decide_eq_true_eq, decide_eq_true_eq]
    rcases hmark with rfl | rfl
    · exact .inl hrun
    · exact .inr hrun
  have hdrop : (List.replicate 3 mark ++ (List.replicate spaces ' ' ++ s)).drop 3 =
      List.replicate spaces ' ' ++ s := rfl
  unfold afterMetadata?
  rw [if_pos hmarks]
  simp only [hdrop, hspaces, isSome_afterEnding?_of_head h, if_true]

def opensMetadata (line : Text) : Bool :=
  runLength '-' line = 3 && (line.drop 3).all fun c => isSpacing c && c ≠ '\x0b'

/-- Metadata begins with a line that opens it, goes on with one that is neither blank nor the end,
and has an end. -/
theorem beginsMetadata_iff {s first : Text} {lines : List Text}
    (h : Text.lines s = first :: lines) :
    beginsMetadata s = true ↔
      opensMetadata first = true ∧
        lines.head?.all (fun second => isBlankLine second || (afterMetadata? second).isSome) = false ∧
          ∃ line ∈ lines, (afterMetadata? line).isSome = true := by
  have hs : s ≠ [] := by
    rintro rfl
    cases h
  rw [lines_eq_cutLine hs] at h
  obtain ⟨rfl, rfl⟩ := List.cons.inj h
  have hbegins : beginsMetadata s = (opensMetadata (cutLine s).1 &&
      !isBlankLine (cutLine s).2 && (afterMetadata? (cutLine s).2).isNone &&
        (Text.lines (cutLine s).2).any fun line => (afterMetadata? line).isSome) := by
    unfold beginsMetadata opensMetadata
    by_cases hrun : runLength '-' s = 3
    · have hcut : cutLine (s.drop 3) = ((cutLine s).1.drop 3, (cutLine s).2) := by
        rw [← hrun, cutLine_drop_runLength s (by decide)]
      have hcloses := metadataCloses_eq_any (Nat.lt_succ_self (cutLine s).2.length)
      simp only [hcut, runLength_cutLine s (show '-' ≠ '\n' by decide), ← hcloses]
    · simp [runLength_cutLine s (show '-' ≠ '\n' by decide), hrun]
  have hsecond : (Text.lines (cutLine s).2).head?.all (fun second =>
      isBlankLine second || (afterMetadata? second).isSome) =
        (isBlankLine (cutLine s).2 || (afterMetadata? (cutLine s).2).isSome) := by
    cases hbody : (cutLine s).2 with
    | nil => rfl
    | cons c body =>
      rw [lines_eq_cutLine (List.cons_ne_nil c body), List.head?_cons, Option.all_some,
        isBlankLine_cutLine, isSome_afterMetadata?_cutLine]
  rw [hbegins, hsecond, Bool.and_eq_true, Bool.and_eq_true, Bool.and_eq_true, Bool.or_eq_false_iff,
    List.any_eq_true, Option.isSome_eq_false_iff, Bool.not_eq_true', and_assoc, and_assoc, and_assoc]

/-! ## Reading a block -/

namespace Surroundings

variable {env : Surroundings}

theorem enter_of_no_containers (h : env.containers = []) (c : Cursor) : env.enter c = (true, c) := by
  simp [enter, h, continued]

variable (henv : env.containers = []) (fuel offset : Nat)
include henv

theorem readMetadata_of_end {s close rest next : Text} (hs : s = close ++ next)
    (hrest : afterMetadata? s = some rest) (hnext : afterBlank? rest = some next) :
    env.readMetadata (fuel + 1) (.ofLine s offset) =
      ([], .ofLine next (offset + Text.byteLength close)) := by
  have hjump := Cursor.jumpTo_of_append (c := .ofLine s offset) hs
  unfold readMetadata
  rw [enter_of_no_containers henv]
  simpa [Cursor.ofLine, hrest, hnext] using hjump

theorem readMetadata_of_line {s : Text} (h : (afterMetadata? s).isSome = false) :
    (env.readMetadata (fuel + 1) (.ofLine s offset)).2 =
      (env.readMetadata fuel
        (.ofLine (cutLine s).2 (offset + Text.byteLength (cutLine s).1))).2 := by
  have hjump := Cursor.jumpTo_of_append (c := .ofLine s offset) (cutLine_append s).symm
  rw [Option.isSome_eq_false_iff, Option.isNone_iff_eq_none] at h
  rw [readMetadata, enter_of_no_containers henv]
  simp only [Cursor.ofLine, readCodeLine] at hjump ⊢
  simp [h, hjump]

theorem readMetadata_cursor {s close : Text}
    {before after : List Text} (hfuel : s.length < fuel)
    (hlines : Text.lines s = before ++ close :: after)
    (hbefore : ∀ line ∈ before, (afterMetadata? line).isSome = false)
    (hclose : (afterMetadata? (close ++ after.flatten)).bind afterBlank? = some after.flatten) :
    (env.readMetadata fuel (.ofLine s offset)).2 =
      .ofLine after.flatten (offset + Text.byteLength (before.flatten ++ close)) := by
  induction before generalizing fuel offset s with
  | nil =>
    obtain ⟨fuel, rfl⟩ : ∃ n, fuel = n + 1 := ⟨fuel - 1, by omega⟩
    have hs : s = close ++ after.flatten := by
      rw [← Text.flatten_lines s, hlines]
      rfl
    obtain ⟨rest, hrest, hnext⟩ := Option.bind_eq_some_iff.1 hclose
    rw [readMetadata_of_end henv fuel offset hs (hs ▸ hrest) hnext]
    rfl
  | cons line before ih =>
    obtain ⟨fuel, rfl⟩ : ∃ n, fuel = n + 1 := ⟨fuel - 1, by omega⟩
    have hs : s ≠ [] := by
      rintro rfl
      cases hlines
    have hlength := length_cutLine_lt hs
    rw [lines_eq_cutLine hs] at hlines
    obtain ⟨rfl, hrest⟩ := List.cons.inj hlines
    rw [List.forall_mem_cons, isSome_afterMetadata?_cutLine] at hbefore
    rw [readMetadata_of_line henv fuel offset hbefore.1, ih _ _ (by omega) hrest hbefore.2,
      List.flatten_cons, List.append_assoc, Text.byteLength_append (cutLine s).1, Nat.add_assoc]

end Surroundings

end Galley.Markdown
