import Galley.Proofs.Html.Element
import Galley.Slug

/-!
# Elements without backslashes

No tag has a backslash, and no slug has one. So an element has one only if a text in it has.
-/

namespace Galley

/-! ## Slugs -/

theorem Text.backslash_not_mem_lowerChar {c : Char} (hc : c ≠ '\\') : '\\' ∉ Text.lowerChar c := by
  have hruns : ∀ run ∈ Text.lowerRuns, (0x5c : Int) < run.1 + run.2.2.2 := by decide +kernel
  unfold Text.lowerChar
  split
  · decide
  · rw [List.mem_singleton]
    cases himage : Text.lowerRuns.image? c with
    | none => exact Ne.symm hc
    | some d =>
      obtain ⟨⟨first, last, stride, distance⟩, hrun, rfl⟩ := Option.map_eq_some_iff.1 himage
      have hfar : (0x5c : Int) < first + distance := hruns _ (List.mem_of_find?_eq_some hrun)
      have hfound := List.find?_some hrun
      simp only [Bool.and_eq_true, decide_eq_true_eq] at hfound
      intro heq
      have hcode : (Char.ofNat (c.toNat + distance).toNat).toNat = 0x5c :=
        (congrArg Char.toNat heq).symm
      by_cases hvalid : (c.toNat + distance).toNat.isValidChar
      · rw [Char.ofNat, dif_pos hvalid] at hcode
        have hvalue : (c.toNat + distance).toNat = 0x5c := hcode
        omega
      · rw [Char.ofNat, dif_neg hvalid] at hcode
        cases hcode

theorem Slug.backslash_not_mem_build (closed : Bool) (s : Text) : '\\' ∉ build closed s := by
  fun_induction build closed s with
  | case1 => exact List.not_mem_nil
  | case2 closed c s halpha ih =>
    have hc : c ≠ '\\' := by
      rintro rfl
      exact absurd halpha (by decide +kernel)
    exact List.not_mem_append (Text.backslash_not_mem_lowerChar hc) ih
  | case3 closed c s _ _ ih => exact List.not_mem_cons_of_ne_of_not_mem (by decide) ih
  | case4 closed c s _ _ ih => exact ih

theorem backslash_not_mem_slug (s : Text) : '\\' ∉ slug s := by
  have hbuild := Slug.backslash_not_mem_build true (Text.trim s)
  unfold slug Slug.dropDash
  cases hdash : Text.dropSuffix? "-" (Slug.build true (Text.trim s)) with
  | none => exact hbuild
  | some t =>
    rw [Text.dropSuffix?_eq_some_iff.1 hdash, List.mem_append, not_or] at hbuild
    exact hbuild.1

/-! ## Elements -/

namespace Html

open Markdown (AlertKind)

variable {s : Text}

theorem backslash_not_mem_escape (h : '\\' ∉ s) : '\\' ∉ escape s := not_mem_escape (by decide) h

theorem backslash_not_mem_lineAttr (line : Option Nat) : '\\' ∉ lineAttr line := by
  cases line with
  | none => exact List.not_mem_nil
  | some n =>
    have hn := Text.not_mem_ofNat (c := '\\') (by decide) n
    exact List.not_mem_append (List.not_mem_append (by decide) hn) (by decide)

theorem backslash_not_mem_titleAttr (h : '\\' ∉ s) : '\\' ∉ titleAttr s := by
  unfold titleAttr
  split
  · exact List.not_mem_nil
  · simp [backslash_not_mem_escape h]

theorem backslash_not_mem_codeBlock {language : Option Text} {attrs : Text}
    (hlanguage : ∀ lang ∈ language.toList, '\\' ∉ lang) (h : '\\' ∉ s) (hattrs : '\\' ∉ attrs) :
    '\\' ∉ codeBlock language s attrs := by
  unfold codeBlock
  split
  · simp [hattrs, backslash_not_mem_escape h]
  · next lang =>
    have hlang := backslash_not_mem_escape (hlanguage lang List.mem_cons_self)
    simp [hattrs, backslash_not_mem_escape h, hlang]

theorem backslash_not_mem_image {alt title : Text} (hsrc : '\\' ∉ s) (halt : '\\' ∉ alt)
    (htitle : '\\' ∉ title) : '\\' ∉ image s alt title := by
  unfold image
  simp [backslash_not_mem_escape hsrc, backslash_not_mem_escape halt,
    backslash_not_mem_titleAttr htitle]

theorem backslash_not_mem_blockQuoteStart {attrs : Text} (hattrs : '\\' ∉ attrs) :
    '\\' ∉ blockQuoteStart attrs := by
  unfold blockQuoteStart
  simp [hattrs]

theorem backslash_not_mem_alertStart {attrs : Text} (kind : AlertKind) (hattrs : '\\' ∉ attrs) :
    '\\' ∉ alertStart kind attrs := by
  have hclass : '\\' ∉ alertClass kind := by cases kind <;> decide
  have htitle : '\\' ∉ alertTitle kind := by cases kind <;> decide
  unfold alertStart
  simp [hclass, htitle, hattrs]

theorem backslash_not_mem_math (display : Bool) (h : '\\' ∉ s) : '\\' ∉ math s display := by
  unfold math
  split
  · simp [backslash_not_mem_escape h]
  · simp [backslash_not_mem_escape h]

end Html

end Galley
