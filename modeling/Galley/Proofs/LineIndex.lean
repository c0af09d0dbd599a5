import Galley.LineIndex

/-!
# Lines of a text

The line of an offset counts the newlines before it: `lineOf_ofText`. So it grows with the offset
and lies between one and the number of lines, and the lines of a text put together of two are
those of its parts.
-/

namespace Galley

open Text (byteLength)

namespace Text

def newlinesBefore (offset : Nat) : Text → Nat
  | [] => 0
  | c :: s =>
    if offset < c.utf8Size then 0
    else (if c = '\n' then 1 else 0) + newlinesBefore (offset - c.utf8Size) s

theorem newlinesBefore_zero (s : Text) : newlinesBefore 0 s = 0 := by
  cases s with
  | nil => rfl
  | cons c s => rw [newlinesBefore, if_pos c.utf8Size_pos]

theorem newlinesBefore_le_count (offset : Nat) (s : Text) :
    newlinesBefore offset s ≤ s.count '\n' := by
  induction s generalizing offset with
  | nil => exact Nat.le_refl 0
  | cons c s ih =>
    rw [newlinesBefore, List.count_cons]
    split
    · omega
    · have hrest := ih (offset - c.utf8Size)
      by_cases hc : c = '\n'
      · simp only [hc, if_true, beq_self_eq_true]
        rw [hc] at hrest
        omega
      · simp only [hc, if_false]
        omega

theorem newlinesBefore_mono {o o' : Nat} (h : o ≤ o') (s : Text) :
    newlinesBefore o s ≤ newlinesBefore o' s := by
  induction s generalizing o o' with
  | nil => exact Nat.le_refl 0
  | cons c s ih =>
    rw [newlinesBefore, newlinesBefore]
    by_cases ho : o < c.utf8Size
    · rw [if_pos ho]
      omega
    · have ho' : ¬ o' < c.utf8Size := by omega
      rw [if_neg ho, if_neg ho']
      have hsub : o - c.utf8Size ≤ o' - c.utf8Size := by omega
      have hrest := ih hsub
      omega

theorem newlinesBefore_append_of_lt {offset : Nat} {a : Text} (h : offset < byteLength a)
    (b : Text) : newlinesBefore offset (a ++ b) = newlinesBefore offset a := by
  induction a generalizing offset with
  | nil => exact absurd h (Nat.not_lt_zero offset)
  | cons c a ih =>
    rw [byteLength] at h
    rw [List.cons_append, newlinesBefore, newlinesBefore]
    by_cases hc : offset < c.utf8Size
    · rw [if_pos hc, if_pos hc]
    · rw [if_neg hc, if_neg hc, ih (by omega)]

theorem newlinesBefore_append_add (a b : Text) (offset : Nat) :
    newlinesBefore (byteLength a + offset) (a ++ b) = a.count '\n' + newlinesBefore offset b := by
  induction a with
  | nil => simp [byteLength]
  | cons c a ih =>
    have hrest : c.utf8Size + byteLength a + offset - c.utf8Size = byteLength a + offset := by omega
    rw [List.cons_append, byteLength, newlinesBefore, if_neg (by omega), hrest, ih, List.count_cons]
    by_cases hc : c = '\n'
    · simp only [hc, if_true, beq_self_eq_true]
      omega
    · simp [hc]

theorem newlinesBefore_lt_count {offset : Nat} {a : Text} (h : offset < byteLength (a ++ ['\n'])) :
    newlinesBefore offset (a ++ ['\n']) < (a ++ ['\n']).count '\n' := by
  have hcount : (a ++ ['\n']).count '\n' = a.count '\n' + 1 := by simp
  have hnewline : '\n'.utf8Size = 1 := by decide
  rw [byteLength_append, byteLength, byteLength, hnewline] at h
  by_cases ho : offset < byteLength a
  · have hle := newlinesBefore_le_count offset a
    rw [newlinesBefore_append_of_lt ho, hcount]
    omega
  · have hoffset : offset = byteLength a + 0 := by omega
    rw [hoffset, newlinesBefore_append_add, newlinesBefore_zero, hcount]
    omega

end Text

namespace LineIndex

open Text (newlinesBefore)

theorem lt_of_mem_startsFrom {offset n : Nat} {s : Text} (h : n ∈ startsFrom offset s) :
    offset < n := by
  induction s generalizing offset with
  | nil => cases h
  | cons c s ih =>
    have hpos := c.utf8Size_pos
    simp only [startsFrom] at h
    split at h
    · rcases List.mem_cons.1 h with rfl | hmem
      · omega
      · have hlt := ih hmem
        omega
    · have hlt := ih h
      omega

theorem takeWhile_startsFrom_eq_nil {offset bound : Nat} (h : bound < offset) (s : Text) :
    (startsFrom offset s).takeWhile (· ≤ bound) = [] := by
  cases hstarts : startsFrom offset s with
  | nil => rfl
  | cons n rest =>
    have hlt := lt_of_mem_startsFrom (hstarts ▸ List.mem_cons_self : n ∈ startsFrom offset s)
    rw [List.takeWhile_cons_of_neg]
    simp only [decide_eq_true_eq]
    omega

theorem length_takeWhile_startsFrom (base offset : Nat) (s : Text) :
    ((startsFrom base s).takeWhile (· ≤ base + offset)).length = newlinesBefore offset s := by
  induction s generalizing base offset with
  | nil => rfl
  | cons c s ih =>
    rw [newlinesBefore]
    by_cases ho : offset < c.utf8Size
    · -- the next line starts behind the offset
      have hbound : base + offset < base + c.utf8Size := by omega
      have hnil := takeWhile_startsFrom_eq_nil hbound s
      have hnext : ¬ (base + c.utf8Size ≤ base + offset) := by omega
      rw [if_pos ho, startsFrom]
      by_cases hc : c = '\n'
      · rw [if_pos hc, List.takeWhile_cons_of_neg (by simpa using hnext)]
        rfl
      · rw [if_neg hc, hnil]
        rfl
    · have hrest := ih (base + c.utf8Size) (offset - c.utf8Size)
      have hsum : base + c.utf8Size + (offset - c.utf8Size) = base + offset := by omega
      have hnext : base + c.utf8Size ≤ base + offset := by omega
      rw [hsum] at hrest
      rw [if_neg ho, startsFrom]
      by_cases hc : c = '\n'
      · rw [if_pos hc, if_pos hc, List.takeWhile_cons_of_pos (by simpa using hnext),
          List.length_cons, hrest, Nat.add_comm]
      · rw [if_neg hc, if_neg hc, hrest, Nat.zero_add]

/-- The line of an offset counts the newlines before it. -/
theorem lineOf_ofText (s : Text) (offset : Nat) :
    (ofText s).lineOf offset = 1 + newlinesBefore offset s := by
  have hlength := length_takeWhile_startsFrom 0 offset s
  rw [Nat.zero_add] at hlength
  rw [lineOf, ofText, List.takeWhile_cons_of_pos (by simp), List.length_cons, hlength, Nat.add_comm]

theorem length_startsFrom (offset : Nat) (s : Text) :
    (startsFrom offset s).length = s.count '\n' := by
  induction s generalizing offset with
  | nil => rfl
  | cons c s ih =>
    rw [startsFrom, List.count_cons]
    by_cases hc : c = '\n'
    · rw [if_pos hc, List.length_cons, ih]
      simp [hc]
    · rw [if_neg hc, ih]
      simp [hc]

theorem size_ofText (s : Text) : (ofText s).size = s.count '\n' + 1 := by
  rw [size, ofText, List.length_cons, length_startsFrom]

theorem lineOf_mono {o o' : Nat} (h : o ≤ o') (s : Text) :
    (ofText s).lineOf o ≤ (ofText s).lineOf o' := by
  have hmono := Text.newlinesBefore_mono h s
  rw [lineOf_ofText, lineOf_ofText]
  omega

end LineIndex

end Galley
