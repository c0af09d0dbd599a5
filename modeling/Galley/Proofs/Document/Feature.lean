import Galley.Document.AutoToc
import Galley.Document.Feature
import Galley.Proofs.Text
import Mathlib.Algebra.Ring.Parity
import Mathlib.Data.List.Infix

/-!
# Escaped dollars

Without math the working markup has a backslash before every dollar. What is searched for in it
afterwards has neither of the two characters, so it is found there exactly if it is found in the
given markup. The backslash comes whatever stands before the dollar: one more than before stand
there, and they can be taken away again. So all dollars are escaped exactly if none was
(`dollarRuns_applyFeatures`).
-/

namespace Galley.Document

theorem hasInfix_escapeDollars {p : Text} (hp : p ≠ []) (hdollar : '$' ∉ p) (hslash : '\\' ∉ p)
    (markup : Text) : Text.hasInfix p (escapeDollars markup) = Text.hasInfix p markup :=
  Text.hasInfix_replace_singleton hp hdollar (by decide)
    (show ∀ d ∈ ['\\', '$'], d ∉ p from
      List.forall_mem_cons.2 ⟨hslash, List.forall_mem_singleton.2 hdollar⟩) markup

theorem Draft.markup_applyFeatures (draft : Draft) (options : Options) :
    (draft.applyFeatures options).markup = draft.markup ∨
      (draft.applyFeatures options).markup = escapeDollars draft.markup := by
  unfold applyFeatures
  dsimp only
  split
  · exact .inr rfl
  · exact .inl rfl

namespace AutoToc

theorem applies_escapeDollars (auto : AutoToc) (markup : Text) (presentation : Bool)
    (folder : Option Text) : auto.applies (escapeDollars markup) presentation folder =
      auto.applies markup presentation folder := by
  unfold applies
  rw [hasInfix_escapeDollars (by decide) (by decide) (by decide),
    hasInfix_escapeDollars (by decide) (by decide) (by decide),
    hasInfix_escapeDollars (by decide) (by decide) (by decide)]

theorem applies_applyFeatures (auto : AutoToc) (options : Options) (draft : Draft)
    (presentation : Bool) (folder : Option Text) :
    auto.applies (draft.applyFeatures options).markup presentation folder =
      auto.applies draft.markup presentation folder := by
  rcases draft.markup_applyFeatures options with hsame | hescaped
  · rw [hsame]
  · rw [hescaped, applies_escapeDollars]

end AutoToc

/-! ## Backslashes before dollars -/

def backslashesAtEnd (s : Text) : Nat := (s.reverse.takeWhile (· = '\\')).length

/-- How many backslashes stand right before each dollar, in order. An odd number of them escapes
the dollar. -/
def dollarRuns (s : Text) : List Nat :=
  s.zipIdx.filterMap fun (c, i) => if c = '$' then some (backslashesAtEnd (s.take i)) else none

theorem backslashesAtEnd_concat (s : Text) (c : Char) :
    backslashesAtEnd (s ++ [c]) = if c = '\\' then backslashesAtEnd s + 1 else 0 := by
  unfold backslashesAtEnd
  rw [List.reverse_concat, List.takeWhile_cons]
  by_cases hc : c = '\\'
  · simp [hc]
  · simp [hc]

theorem dollarRuns_concat (s : Text) (c : Char) :
    dollarRuns (s ++ [c]) = dollarRuns s ++ if c = '$' then [backslashesAtEnd s] else [] := by
  unfold dollarRuns
  rw [List.zipIdx_append, List.filterMap_append]
  congr 1
  · refine List.filterMap_congr fun ⟨d, i⟩ hmem => ?_
    have hi : i < s.length := by simpa using (List.mem_zipIdx hmem).2.1
    simp only [List.take_append_of_le_length (Nat.le_of_lt hi)]
  · by_cases hc : c = '$'
    · simp [hc]
    · simp [hc]

theorem escapeDollars_append (s t : Text) :
    escapeDollars (s ++ t) = escapeDollars s ++ escapeDollars t :=
  Text.replace_singleton_append s t

theorem escapeDollars_cons_dollar (s : Text) :
    escapeDollars ('$' :: s) = '\\' :: '$' :: escapeDollars s :=
  Text.replace_singleton_cons_self s

theorem escapeDollars_cons_of_ne {c : Char} (hc : c ≠ '$') (s : Text) :
    escapeDollars (c :: s) = c :: escapeDollars s :=
  Text.replace_singleton_cons_of_ne hc s

theorem escapeDollars_concat_dollar (s : Text) :
    escapeDollars (s ++ ['$']) = escapeDollars s ++ ['\\'] ++ ['$'] := by
  rw [escapeDollars_append, List.append_assoc]
  rfl

theorem escapeDollars_concat_of_ne (s : Text) {c : Char} (hc : c ≠ '$') :
    escapeDollars (s ++ [c]) = escapeDollars s ++ [c] := by
  rw [escapeDollars_append, escapeDollars_cons_of_ne hc]
  rfl

theorem backslashesAtEnd_escapeDollars (s : Text) :
    backslashesAtEnd (escapeDollars s) = backslashesAtEnd s := by
  induction s using List.reverseRecOn with
  | nil => rfl
  | append_singleton s c ih =>
    by_cases hc : c = '$'
    · have hdollar : '$' ≠ '\\' := by decide
      rw [hc, escapeDollars_concat_dollar, backslashesAtEnd_concat, if_neg hdollar,
        backslashesAtEnd_concat, if_neg hdollar]
    · rw [escapeDollars_concat_of_ne s hc, backslashesAtEnd_concat, backslashesAtEnd_concat, ih]

theorem dollarRuns_escapeDollars (s : Text) :
    dollarRuns (escapeDollars s) = (dollarRuns s).map (· + 1) := by
  induction s using List.reverseRecOn with
  | nil => rfl
  | append_singleton s c ih =>
    by_cases hc : c = '$'
    · rw [hc, escapeDollars_concat_dollar, dollarRuns_concat, dollarRuns_concat, dollarRuns_concat,
        ih, backslashesAtEnd_concat, backslashesAtEnd_escapeDollars]
      simp
    · rw [escapeDollars_concat_of_ne s hc, dollarRuns_concat, dollarRuns_concat, ih]
      simp [hc]

theorem head?_escapeDollars_ne (s : Text) : (escapeDollars s).head? ≠ some '$' := by
  cases s with
  | nil => simp [escapeDollars, Text.replace, Text.replaceFrom]
  | cons c s =>
    by_cases hc : c = '$'
    · simp [hc, escapeDollars_cons_dollar]
    · simpa [escapeDollars_cons_of_ne hc] using hc

/-- The backslashes that escaping adds can be told from those that were there. -/
theorem replace_escapeDollars (s : Text) : Text.replace "\\$" "$" (escapeDollars s) = s := by
  induction s with
  | nil => rfl
  | cons c s ih =>
    by_cases hc : c = '$'
    · rw [hc, escapeDollars_cons_dollar]
      exact congrArg ('$' :: ·) ih
    · have hprefix : ¬ Text.hasPrefix "\\$" (c :: escapeDollars s) = true := by
        rw [Text.hasPrefix_iff]
        rintro ⟨rest, hrest⟩
        exact head?_escapeDollars_ne s (by rw [(List.cons.inj hrest).2]; rfl)
      rw [escapeDollars_cons_of_ne hc, Text.replace, Text.replaceFrom, if_neg hprefix]
      exact congrArg (c :: ·) ih

theorem Draft.markup_applyFeatures_of_not_math {options : Options} (hmath : options.math = false)
    (draft : Draft) : (draft.applyFeatures options).markup = escapeDollars draft.markup := by
  unfold applyFeatures
  simp only [hmath, Bool.not_false, Bool.and_true]
  split
  · rfl
  · next hdollar =>
    refine (Text.replace_singleton_of_not_mem fun hmem => hdollar ?_).symm
    exact Text.hasInfix_iff.2 ((List.singleton_infix_iff _ _).2 hmem)

/-- Without math one backslash more stands before each dollar of the working markup than of the given
markup, and taking these away gives the given markup back. So every dollar is escaped, by an odd
number of backslashes, exactly if an even number stood before each. -/
theorem dollarRuns_applyFeatures {options : Options} (hmath : options.math = false)
    (draft : Draft) :
    dollarRuns (draft.applyFeatures options).markup = (dollarRuns draft.markup).map (· + 1) ∧
      ((∀ n ∈ dollarRuns (draft.applyFeatures options).markup, Odd n) ↔
        ∀ n ∈ dollarRuns draft.markup, Even n) ∧
      Text.replace "\\$" "$" (draft.applyFeatures options).markup = draft.markup := by
  rw [draft.markup_applyFeatures_of_not_math hmath, dollarRuns_escapeDollars,
    replace_escapeDollars, List.forall_mem_map]
  refine ⟨rfl, forall_congr' fun n => forall_congr' fun _ => ?_, rfl⟩
  rw [Nat.odd_add_one, Nat.not_odd_iff_even]

/-- Two prices, one of them behind two backslashes. -/
def pricePair : Text := "\\\\$5 or $6"

theorem dollarRuns_applyFeatures_pricePair :
    let escaped := (({ markup := pricePair } : Draft).applyFeatures { math := false }).markup
    dollarRuns escaped = [3, 1] ∧ (∀ n ∈ dollarRuns escaped, Odd n) ∧
      Text.replace "\\$" "$" escaped = pricePair := by
  intro escaped
  have hmath : ({ math := false } : Options).math = false := rfl
  obtain ⟨hruns, hodd, hback⟩ := dollarRuns_applyFeatures hmath { markup := pricePair }
  exact ⟨hruns.trans (by decide), hodd.2 (by decide), hback⟩

/-- A dollar that is escaped already is escaped no more. -/
theorem not_odd_dollarRuns_escapedPrice :
    (({ markup := "\\$5" } : Draft).applyFeatures { math := false }).markup = "\\\\$5" ∧
      dollarRuns "\\$5" = [1] ∧ dollarRuns "\\\\$5" = [2] ∧
      ¬ ∀ n ∈ dollarRuns (({ markup := "\\$5" } : Draft).applyFeatures { math := false }).markup,
        Odd n := by
  decide

end Galley.Document
