import Galley.Text.Alphanumeric
import Galley.Text.LowerCase

/-!
# Alphanumeric characters in lower case

The lower case of an alphanumeric character is one alphanumeric character that has no other lower
case (`exists_lowerChar_eq`), with one exception: the capital I with a dot above becomes two
characters, and the second of them, a combining dot, is not alphanumeric. The tables are checked run
by run. A run keeps to one range of alphanumeric characters, and of any other run it lies either on
one side or, where both have every second character, in the gaps.
-/

namespace Galley.Text

namespace CaseRuns

/-- A run of code points with its stride and the distance to the counterparts. -/
abbrev Run := Nat × Nat × Nat × Int

def covers (run : Run) (n : Nat) : Bool :=
  run.1 ≤ n && n ≤ run.2.1 && (n - run.1) % run.2.2.1 == 0

theorem covers_iff {run : Run} {n : Nat} :
    covers run n = true ↔ run.1 ≤ n ∧ n ≤ run.2.1 ∧ (n - run.1) % run.2.2.1 = 0 := by
  simp [covers, and_assoc]

theorem exists_of_image?_eq_some {runs : CaseRuns} {c d : Char} (h : runs.image? c = some d) :
    ∃ run ∈ runs, covers run c.toNat = true ∧ d = Char.ofNat (c.toNat + run.2.2.2).toNat := by
  obtain ⟨run, hfind, hd⟩ := Option.map_eq_some_iff.1 h
  have hcovers := List.find?_some hfind
  exact ⟨run, List.mem_of_find?_eq_some hfind, hcovers, hd.symm⟩

theorem image?_eq_none {runs : CaseRuns} {c : Char}
    (h : ∀ run ∈ runs, covers run c.toNat = false) : runs.image? c = none := by
  rw [image?, Option.map_eq_none_iff, List.find?_eq_none]
  intro run hrun
  have hcovers := h run hrun
  exact Bool.eq_false_iff.1 hcovers

def imageFirst (run : Run) : Nat := (run.1 + run.2.2.2).toNat

def imageLast (run : Run) : Nat := (run.2.1 + run.2.2.2).toNat

/-- Whether no image of the run is a code point of `other`: the images lie before it, behind it or
in its gaps. -/
def misses (run other : Run) : Bool :=
  Nat.blt (imageLast run) other.1 || Nat.blt other.2.1 (imageFirst run) ||
    (run.1 == run.2.1 || run.2.2.1 == 2) && other.2.2.1 == 2 &&
      (imageFirst run - other.1) % 2 == 1

/-- Whether the images of the run lie in the range. -/
def fits (run : Run) (range : Nat × Nat) : Bool :=
  Nat.ble range.1 (imageFirst run) && Nat.ble (imageLast run) range.2

theorem covers_eq_false_of_misses {run other : Run}
    (h : misses run other = true) (hpos : 0 < imageFirst run) {n m : Nat}
    (hn : covers run n = true) (hm : (m : Int) = n + run.2.2.2) : covers other m = false := by
  rw [covers_iff] at hn
  rw [← Bool.not_eq_true, covers_iff]
  rintro ⟨hfirst, hlast, hstride⟩
  obtain ⟨hn1, hn2, hn3⟩ := hn
  simp only [misses, imageFirst, imageLast, Bool.or_eq_true, Bool.and_eq_true, Nat.blt_eq,
    beq_iff_eq] at h hpos
  rcases h with (hbefore | hbehind) | ⟨⟨hrun, htwo⟩, hodd⟩
  · omega
  · omega
  · rw [htwo] at hstride
    have heven : (n - run.1) % 2 = 0 := by
      rcases hrun with hone | hrun
      · omega
      · rwa [hrun] at hn3
    omega

end CaseRuns

/-! ## The tables -/

theorem misses_lowerRuns :
    (lowerRuns.all fun run => lowerRuns.all (CaseRuns.misses run)) = true := by
  decide +kernel

theorem misses_dottedI :
    (lowerRuns.all (CaseRuns.misses · ('İ'.toNat, 'İ'.toNat, 1, 0))) = true := by
  decide +kernel

theorem fits_alphanumericRanges :
    (lowerRuns.all fun run => alphanumericRanges.any (CaseRuns.fits run)) = true := by
  decide +kernel

theorem isValidChar_alphanumericRange : ∀ range ∈ alphanumericRanges,
    0 < range.1 ∧ (range.2 < 0xd800 ∨ 0xdfff < range.1 ∧ range.2 < 0x110000) := by
  decide +kernel

theorem blankRanges_apart : ∀ blanks ∈ blankRanges, ∀ range ∈ alphanumericRanges,
    blanks.2 < range.1 ∨ range.2 < blanks.1 := by
  decide +kernel

theorem inRanges_iff {ranges : List (Nat × Nat)} {c : Char} :
    inRanges ranges c = true ↔ ∃ r ∈ ranges, r.1 ≤ c.toNat ∧ c.toNat ≤ r.2 := by
  simp [inRanges]

theorem isAlphanumeric_of_isBlank {c : Char} (h : isBlank c = true) : isAlphanumeric c = false := by
  obtain ⟨blanks, hblanks, hfrom, hto⟩ := inRanges_iff.1 h
  rw [← Bool.not_eq_true, isAlphanumeric, inRanges_iff]
  rintro ⟨range, hrange, hfirst, hlast⟩
  have hapart := blankRanges_apart blanks hblanks range hrange
  omega

/-! ## Lower case -/

theorem exists_run_of_image {c d : Char} (h : lowerRuns.image? c = some d) :
    ∃ run ∈ lowerRuns, 0 < CaseRuns.imageFirst run ∧ CaseRuns.covers run c.toNat = true ∧
      (d.toNat : Int) = c.toNat + run.2.2.2 ∧ isAlphanumeric d = true := by
  obtain ⟨run, hrun, hcovers, rfl⟩ := CaseRuns.exists_of_image?_eq_some h
  obtain ⟨hfrom, hto, -⟩ := CaseRuns.covers_iff.1 hcovers
  have hranges := List.all_eq_true.1 fits_alphanumericRanges run hrun
  obtain ⟨range, hrange, hfits⟩ := List.any_eq_true.1 hranges
  obtain ⟨hrangepos, hvalid⟩ := isValidChar_alphanumericRange range hrange
  simp only [CaseRuns.fits, CaseRuns.imageLast, Bool.and_eq_true, Nat.ble_eq] at hfits
  obtain ⟨hfirst, hlast⟩ := hfits
  have hpos : 0 < CaseRuns.imageFirst run := by omega
  unfold CaseRuns.imageFirst at hfirst
  have hchar : (c.toNat + run.2.2.2).toNat.isValidChar := by
    unfold Nat.isValidChar
    omega
  have hcode : (Char.ofNat (c.toNat + run.2.2.2).toNat).toNat = (c.toNat + run.2.2.2).toNat := by
    rw [Char.ofNat, dif_pos hchar]
    rfl
  refine ⟨run, hrun, hpos, hcovers, by omega, ?_⟩
  rw [isAlphanumeric, inRanges_iff]
  exact ⟨range, hrange, by omega, by omega⟩

theorem lowerChar_image {c d : Char} (h : lowerRuns.image? c = some d) : lowerChar d = [d] := by
  obtain ⟨run, hrun, hpos, hcovers, hcode, -⟩ := exists_run_of_image h
  have hdotted : d ≠ 'İ' := by
    rintro rfl
    have hmisses := List.all_eq_true.1 misses_dottedI run hrun
    have hfalse := CaseRuns.covers_eq_false_of_misses hmisses hpos hcovers hcode
    revert hfalse
    decide
  have hnone : lowerRuns.image? d = none := by
    apply CaseRuns.image?_eq_none
    intro other hother
    have hmisses := List.all_eq_true.1 (List.all_eq_true.1 misses_lowerRuns run hrun) other hother
    exact CaseRuns.covers_eq_false_of_misses hmisses hpos hcovers hcode
  rw [lowerChar, if_neg hdotted, hnone]
  rfl

/-- But for the capital I with a dot above, the lower case of a character is one character that
stays as it is in lower case, and that of an alphanumeric character is alphanumeric. -/
theorem exists_lowerChar_eq {c : Char} (hc : c ≠ 'İ') :
    ∃ d, lowerChar c = [d] ∧ lowerChar d = [d] ∧
      (isAlphanumeric c = true → isAlphanumeric d = true) := by
  have hlower : lowerChar c = [(lowerRuns.image? c).getD c] := by rw [lowerChar, if_neg hc]
  cases himage : lowerRuns.image? c with
  | none =>
    rw [himage, Option.getD_none] at hlower
    exact ⟨c, hlower, hlower, id⟩
  | some d =>
    rw [himage, Option.getD_some] at hlower
    obtain ⟨-, -, -, -, -, halphanumeric⟩ := exists_run_of_image himage
    exact ⟨d, hlower, lowerChar_image himage, fun _ => halphanumeric⟩

theorem dottedI_not_mem_lowerChar (c : Char) : 'İ' ∉ lowerChar c := by
  have hdotted : lowerChar 'İ' = ['i', '\u0307'] := rfl
  by_cases hc : c = 'İ'
  · rw [hc, hdotted]
    decide
  · obtain ⟨d, hd, hfixed, -⟩ := exists_lowerChar_eq hc
    rw [hd, List.mem_singleton]
    rintro rfl
    rw [hdotted] at hfixed
    cases hfixed

end Galley.Text
