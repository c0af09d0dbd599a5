import Galley.Proofs.LineIndex
import Galley.Text.Bytes
import Mathlib.Order.Monotone.Defs
import Mathlib.Order.Nat

/-!
# Searching the line of an offset

In UTF-8 a newline is one byte, and no other character has this byte. So the line of an offset is
one more than the number of newline bytes before it, also for an offset inside a character
(`count_take_bytes`). The starts of the lines increase strictly, so a search that halves the index
comes to the same line (`partitionPoint_eq_length_takeWhile`).
-/

namespace Galley

namespace Text

/-! ## Newlines among the bytes -/

def newlineByte : UInt8 := 10

theorem le_of_mem_utf8EncodeChar {c : Char} (hc : 127 < c.val.toNat) {b : UInt8}
    (hb : b ∈ String.utf8EncodeChar c) : 128 ≤ b.toNat := by
  have hlarge : ¬ c.val.toNat ≤ 127 := by omega
  rw [String.utf8EncodeChar] at hb
  simp only [if_neg hlarge] at hb
  split at hb
  · simp only [List.mem_cons, List.not_mem_nil, or_false] at hb
    rcases hb with rfl | rfl <;> rw [UInt8.toNat_ofNat'] <;> omega
  split at hb
  · simp only [List.mem_cons, List.not_mem_nil, or_false] at hb
    rcases hb with rfl | rfl | rfl <;> rw [UInt8.toNat_ofNat'] <;> omega
  · simp only [List.mem_cons, List.not_mem_nil, or_false] at hb
    rcases hb with rfl | rfl | rfl | rfl <;> rw [UInt8.toNat_ofNat'] <;> omega

theorem newlineByte_mem_utf8EncodeChar_iff {c : Char} :
    newlineByte ∈ String.utf8EncodeChar c ↔ c = '\n' := by
  have hten : newlineByte.toNat = 10 := rfl
  constructor
  · intro h
    have hascii : c.val.toNat ≤ 127 := by
      by_contra hlarge
      have hbyte := le_of_mem_utf8EncodeChar (by omega) h
      omega
    rw [String.utf8EncodeChar] at h
    simp only [if_pos hascii, List.mem_singleton] at h
    have hbyte := congrArg UInt8.toNat h
    have hnewline : '\n'.val.toNat = 10 := rfl
    rw [UInt8.toNat_ofNat'] at hbyte
    apply Char.ext
    apply UInt32.toNat_inj.1
    omega
  · rintro rfl
    decide

theorem count_take_utf8EncodeChar {c : Char} {offset : Nat} (h : offset < c.utf8Size) :
    ((String.utf8EncodeChar c).take offset).count newlineByte = 0 := by
  rw [List.count_eq_zero]
  intro hmem
  have hnewline := newlineByte_mem_utf8EncodeChar_iff.1 (List.mem_of_mem_take hmem)
  have hsize : c.utf8Size = 1 := by
    rw [hnewline]
    decide
  obtain rfl : offset = 0 := by omega
  cases hmem

theorem count_utf8EncodeChar (c : Char) :
    (String.utf8EncodeChar c).count newlineByte = if c = '\n' then 1 else 0 := by
  by_cases hc : c = '\n'
  · rw [hc]
    decide
  · rw [if_neg hc, List.count_eq_zero, newlineByte_mem_utf8EncodeChar_iff]
    exact hc

theorem count_take_bytes (offset : Nat) (s : Text) :
    ((bytes s).take offset).count newlineByte = newlinesBefore offset s := by
  induction s generalizing offset with
  | nil => simp [bytes, newlinesBefore]
  | cons c s ih =>
    have hbytes : bytes (c :: s) = String.utf8EncodeChar c ++ bytes s := rfl
    have hlength := String.length_utf8EncodeChar c
    rw [hbytes, newlinesBefore, List.take_append, List.count_append, hlength, ih]
    by_cases hoffset : offset < c.utf8Size
    · have hrest : offset - c.utf8Size = 0 := by omega
      rw [if_pos hoffset, count_take_utf8EncodeChar hoffset, hrest, newlinesBefore_zero]
    · rw [if_neg hoffset, List.take_of_length_le (by omega), count_utf8EncodeChar]

end Text

namespace LineIndex

/-! ## Searching by halves -/

/-- Where a search for the last place with `p` arrives, among `size` places from `base` on: it looks
at the middle place and goes on in the half that begins there or in the one before it. -/
def bisect (p : Nat → Bool) (base size : Nat) : Nat :=
  if size ≤ 1 then base
  else bisect p (if p (base + size / 2) then base + size / 2 else base) (size - size / 2)
termination_by size
decreasing_by omega

/-- How many elements at the front of a list have `p`, if those behind them do not: one more than
the place at which the search for the last of them arrives, unless even that one fails. -/
def partitionPoint {α : Type} (p : α → Bool) (xs : List α) : Nat :=
  let last := bisect (fun i => xs[i]?.any p) 0 xs.length
  if xs[last]?.any p then last + 1 else last

variable {p : Nat → Bool} {k base size : Nat}

/-- The end `k` of the places with `p` stays in the stretch that is left. -/
theorem bisect_bounds (hp : ∀ i, p i = true ↔ i < k) (hbase : base ≤ k) (hk : k ≤ base + size) :
    bisect p base size ≤ k ∧ k ≤ bisect p base size + 1 := by
  induction size using Nat.strongRecOn generalizing base with
  | _ size ih =>
    rw [bisect]
    by_cases hsize : size ≤ 1
    · rw [if_pos hsize]
      omega
    rw [if_neg hsize]
    apply ih (size - size / 2) (by omega)
    · split
      · next hmiddle =>
        rw [hp] at hmiddle
        omega
      · exact hbase
    · split
      · omega
      · next hmiddle =>
        rw [hp] at hmiddle
        omega

theorem partitionPoint_eq {α : Type} {p : α → Bool} {xs : List α} {k : Nat}
    (hp : ∀ i, xs[i]?.any p = true ↔ i < k) (hk : k ≤ xs.length) : partitionPoint p xs = k := by
  have hbounds := bisect_bounds hp (Nat.zero_le k) (by omega : k ≤ 0 + xs.length)
  simp only [partitionPoint]
  split
  · next hlast =>
    rw [hp] at hlast
    omega
  · next hlast =>
    rw [hp] at hlast
    omega

/-- If no element that has `p` stands behind one that has not, the search by halves finds what a
scan from the front does. -/
theorem partitionPoint_eq_length_takeWhile {α : Type} {p : α → Bool} {xs : List α}
    (h : xs.Pairwise fun a b => p b = true → p a = true) :
    partitionPoint p xs = (xs.takeWhile p).length := by
  apply partitionPoint_eq
  · induction xs with
    | nil => simp
    | cons x xs ih =>
      rw [List.pairwise_cons] at h
      intro i
      cases hx : p x with
      | true =>
        rw [List.takeWhile_cons_of_pos hx, List.length_cons]
        cases i with
        | zero => simp [hx]
        | succ i => simpa using ih h.2 i
      | false =>
        rw [List.takeWhile_cons_of_neg (by simp [hx])]
        cases i with
        | zero => simp [hx]
        | succ i =>
          simp only [List.getElem?_cons_succ, List.length_nil, Nat.not_lt_zero, iff_false]
          intro hi
          obtain ⟨y, hy, hpy⟩ := (Option.any_eq_true _ _).1 hi
          rw [h.1 y (List.mem_of_getElem? hy) hpy] at hx
          cases hx
  · exact (List.takeWhile_prefix p).length_le

/-! ## The starts of the lines -/

theorem pairwise_startsFrom (offset : Nat) (s : Text) : (startsFrom offset s).Pairwise (· < ·) := by
  induction s generalizing offset with
  | nil => exact List.Pairwise.nil
  | cons c s ih =>
    rw [startsFrom]
    split
    · rw [List.pairwise_cons]
      exact ⟨fun n hn => lt_of_mem_startsFrom hn, ih _⟩
    · exact ih _

theorem pairwise_starts (s : Text) : (ofText s).starts.Pairwise (· < ·) := by
  rw [ofText, List.pairwise_cons]
  exact ⟨fun n hn => lt_of_mem_startsFrom hn, pairwise_startsFrom 0 s⟩

theorem lineOf_le_size (s : Text) (offset : Nat) : (ofText s).lineOf offset ≤ (ofText s).size := by
  have hcount := Text.newlinesBefore_le_count offset s
  rw [lineOf_ofText, size_ofText]
  omega

/-- The line of an offset is one more than the number of newline bytes before it, where an offset
past the end counts as the end. It grows with the offset and is the number of a line, and a search
by halves among the starts, which increase strictly, finds it. -/
theorem lineOf_exact (s : Text) :
    (∀ offset, (ofText s).lineOf offset =
        1 + ((Text.bytes s).take (min offset (Text.bytes s).length)).count Text.newlineByte) ∧
      Monotone (ofText s).lineOf ∧
      (∀ offset, 1 ≤ (ofText s).lineOf offset ∧ (ofText s).lineOf offset ≤ (ofText s).size) ∧
      (ofText s).starts.Pairwise (· < ·) ∧
      ∀ offset, partitionPoint (· ≤ offset) (ofText s).starts = (ofText s).lineOf offset := by
  refine ⟨?_, ?_, ?_, pairwise_starts s, ?_⟩
  · intro offset
    rw [← List.take_eq_take_min, Text.count_take_bytes, lineOf_ofText]
  · intro offset offset' h
    exact lineOf_mono h s
  · intro offset
    constructor
    · rw [lineOf_ofText]
      omega
    · exact lineOf_le_size s offset
  · intro offset
    apply partitionPoint_eq_length_takeWhile
    apply (pairwise_starts s).imp
    intro start next hlt hnext
    simp only [decide_eq_true_eq] at hnext ⊢
    omega

end LineIndex

end Galley
