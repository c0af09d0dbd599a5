import Galley.Proofs.Text
import Galley.Proofs.Text.LowerCase
import Galley.Slug

/-!
# The form of slugs

A slug neither begins nor ends with a dash and never has two in a row (`singleDashes_slug`), and
without its dashes it is the lower case of the alphanumeric characters of its text (`letters_slug`).
A text of this form in lower case is its own slug (`slug_eq_self`). So slugs are in normal form, with
one exception: the lower case of a capital I with a dot above has a combining dot, which is not
alphanumeric and which the slug of the slug drops (`isNormal_slug_iff`).
-/

namespace Galley

namespace Slug

open Text (Trimmed exists_lowerChar_eq isAlphanumeric isBlank lower lowerChar trim)

/-- Whether dashes stand only inside of a text and one at a time. -/
structure SingleDashes (t : Text) : Prop where
  head : t.head? ≠ some '-'
  last : t.getLast? ≠ some '-'
  apart : ¬ ("--" : Text) <:+: t

/-- The normal form of slugs: alphanumeric characters with single dashes between them. -/
structure IsNormal (t : Text) : Prop extends SingleDashes t where
  isAlphanumeric_or_dash : ∀ c ∈ t, isAlphanumeric c = true ∨ c = '-'

/-! ## Characters -/

theorem isAlphanumeric_dash : isAlphanumeric '-' = false := by decide +kernel

theorem dash_not_mem_lowerChar {c : Char} (h : isAlphanumeric c = true) : '-' ∉ lowerChar c := by
  by_cases hc : c = 'İ'
  · rw [hc]
    decide
  · obtain ⟨d, hd, -, halphanumeric⟩ := exists_lowerChar_eq hc
    rw [hd, List.mem_singleton]
    rintro rfl
    have hdash := halphanumeric h
    rw [isAlphanumeric_dash] at hdash
    cases hdash

theorem lowerChar_ne_nil (c : Char) : lowerChar c ≠ [] := by
  unfold lowerChar
  split
  · exact List.cons_ne_nil _ _
  · exact List.cons_ne_nil _ _

/-! ## Letters -/

theorem filter_build (closed : Bool) (s : Text) :
    (build closed s).filter (· ≠ '-') = lower (s.filter isAlphanumeric) := by
  fun_induction build closed s with
  | case1 => rfl
  | case2 closed c s halphanumeric ih =>
    have hletters : (lowerChar c).filter (· ≠ '-') = lowerChar c := by
      rw [List.filter_eq_self]
      intro d hd
      simp only [ne_eq, decide_not, Bool.not_eq_true', decide_eq_false_iff_not]
      rintro rfl
      exact dash_not_mem_lowerChar halphanumeric hd
    rw [List.filter_append, hletters, ih, List.filter_cons_of_pos halphanumeric]
    rfl
  | case3 closed c s halphanumeric _ ih =>
    rw [List.filter_cons_of_neg (by simp), ih, List.filter_cons_of_neg halphanumeric]
  | case4 closed c s halphanumeric _ ih => rw [ih, List.filter_cons_of_neg halphanumeric]

theorem dropDash_cases (s : Text) :
    dropDash s = s ∧ s.getLast? ≠ some '-' ∨ s = dropDash s ++ ['-'] := by
  unfold dropDash
  cases hsuffix : Text.dropSuffix? "-" s with
  | none =>
    refine .inl ⟨rfl, ?_⟩
    intro hlast
    obtain ⟨r, hr⟩ := List.getLast?_eq_some_iff.1 hlast
    have hdropped : Text.dropSuffix? "-" s = some r := Text.dropSuffix?_eq_some_iff.2 hr
    rw [hsuffix] at hdropped
    cases hdropped
  | some r => exact .inr (Text.dropSuffix?_eq_some_iff.1 hsuffix)

theorem filter_isAlphanumeric_trim (s : Text) :
    (trim s).filter isAlphanumeric = s.filter isAlphanumeric := by
  have hblanks {b : Text} (hb : b.all isBlank = true) : b.filter isAlphanumeric = [] := by
    rw [List.filter_eq_nil_iff]
    intro c hc
    rw [Text.isAlphanumeric_of_isBlank (List.all_eq_true.1 hb c hc)]
    exact Bool.false_ne_true
  obtain ⟨before, after, hbefore, hafter, hs⟩ := Text.exists_append_trim s
  have hparts := congrArg (List.filter isAlphanumeric) hs
  rw [List.filter_append, List.filter_append, hblanks hbefore, hblanks hafter, List.nil_append,
    List.append_nil] at hparts
  exact hparts.symm

/-- Without its dashes, a slug is the lower case of the alphanumeric characters of the text. -/
theorem letters_slug (s : Text) :
    (slug s).filter (· ≠ '-') = lower (s.filter isAlphanumeric) := by
  rw [← filter_isAlphanumeric_trim, ← filter_build true]
  rcases dropDash_cases (build true (trim s)) with ⟨hsame, -⟩ | hdropped
  · rw [slug, hsame]
  · rw [hdropped, List.filter_append]
    exact (List.append_nil _).symm

theorem mem_slug_iff {c : Char} (hc : c ≠ '-') {s : Text} :
    c ∈ slug s ↔ ∃ d ∈ s, isAlphanumeric d = true ∧ c ∈ lowerChar d := by
  have hletters : c ∈ slug s ↔ c ∈ (slug s).filter (· ≠ '-') := by simp [hc]
  rw [hletters, letters_slug, lower, List.mem_flatMap]
  simp only [List.mem_filter, and_assoc]

/-! ## Dashes -/

theorem head?_build (s : Text) : (build true s).head? ≠ some '-' := by
  induction s with
  | nil => simp [build]
  | cons c s ih =>
    rw [build]
    split
    · next halphanumeric =>
      intro hhead
      obtain ⟨d, w, hw⟩ := List.exists_cons_of_ne_nil (lowerChar_ne_nil c)
      rw [hw] at hhead
      obtain rfl : d = '-' := Option.some.inj hhead
      apply dash_not_mem_lowerChar halphanumeric
      rw [hw]
      exact List.mem_cons_self
    · exact ih

theorem apart_build (closed : Bool) (s : Text) : ¬ ("--" : Text) <:+: build closed s := by
  fun_induction build closed s with
  | case1 => decide
  | case2 closed c s halphanumeric ih =>
    intro hinfix
    apply ih
    apply Text.isInfix_of_isInfix_append (by decide) ?_ hinfix
    intro d hd hdash
    obtain rfl : d = '-' := by simpa using hdash
    exact dash_not_mem_lowerChar halphanumeric hd
  | case3 closed c s _ _ ih =>
    intro hinfix
    rcases List.infix_cons_iff.1 hinfix with hprefix | hinfix
    · have hrest : ['-'] <+: build true s := (List.cons_prefix_cons.1 hprefix).2
      obtain ⟨r, hr⟩ := hrest
      exact head?_build s (congrArg List.head? hr.symm)
    · exact ih hinfix
  | case4 closed c s _ _ ih => exact ih

theorem singleDashes_slug (s : Text) : SingleDashes (slug s) := by
  have hhead := head?_build (trim s)
  have hapart := apart_build true (trim s)
  unfold slug
  rcases dropDash_cases (build true (trim s)) with ⟨hsame, hlast⟩ | hdropped
  · rw [hsame]
    exact ⟨hhead, hlast, hapart⟩
  · generalize dropDash (build true (trim s)) = kept at hdropped ⊢
    rw [hdropped] at hhead hapart
    constructor
    · intro hkept
      apply hhead
      rw [List.head?_append, hkept]
      rfl
    · intro hkept
      obtain ⟨r, rfl⟩ := List.getLast?_eq_some_iff.1 hkept
      apply hapart
      exact ⟨r, [], by simp⟩
    · intro hkept
      exact hapart (hkept.trans (List.prefix_append kept ['-']).isInfix)

/-! ## Slugs of slugs -/

theorem build_eq_self {t : Text} (closed : Bool) (hhead : closed = true → t.head? ≠ some '-')
    (hapart : ¬ ("--" : Text) <:+: t)
    (hchars : ∀ c ∈ t, isAlphanumeric c = true ∧ lowerChar c = [c] ∨ c = '-') :
    build closed t = t := by
  induction t generalizing closed with
  | nil => rfl
  | cons c t ih =>
    have hrest : ¬ ("--" : Text) <:+: t := fun h => hapart (List.infix_cons_iff.2 (.inr h))
    rw [List.forall_mem_cons] at hchars
    obtain ⟨hc, ht⟩ := hchars
    rw [build]
    rcases hc with ⟨halphanumeric, hlower⟩ | rfl
    · rw [if_pos halphanumeric, hlower, ih false (by simp) hrest ht]
      rfl
    · have hopen : closed = false := by
        cases closed with
        | false => rfl
        | true => exact absurd rfl (hhead rfl)
      have hnext : t.head? ≠ some '-' := by
        intro heq
        obtain ⟨r, rfl⟩ := List.head?_eq_some_iff.1 heq
        apply hapart
        exact ⟨[], r, rfl⟩
      rw [if_neg (by simp [isAlphanumeric_dash]), if_pos (by simp [hopen, isSeparator]),
        ih true (fun _ => hnext) hrest ht]

/-- A text in normal form and lower case is its own slug. -/
theorem slug_eq_self {t : Text} (h : IsNormal t) (hlower : ∀ c ∈ t, lowerChar c = [c]) :
    slug t = t := by
  have hblank : ∀ c ∈ t, isBlank c = false := by
    intro c hc
    rcases h.isAlphanumeric_or_dash c hc with halphanumeric | rfl
    · by_contra hblank
      rw [Bool.not_eq_false] at hblank
      rw [Text.isAlphanumeric_of_isBlank hblank] at halphanumeric
      cases halphanumeric
    · decide
  have htrimmed : Trimmed t := by
    constructor
    · intro c hc
      exact hblank c (List.mem_of_head? hc)
    · intro c hc
      exact hblank c (List.mem_of_getLast? hc)
  have hbuild : build true t = t := by
    apply build_eq_self true (fun _ => h.head) h.apart
    intro c hc
    rcases h.isAlphanumeric_or_dash c hc with halphanumeric | hdash
    · exact .inl ⟨halphanumeric, hlower c hc⟩
    · exact .inr hdash
  rw [slug, htrimmed.trim_eq, hbuild]
  rcases dropDash_cases t with ⟨hsame, -⟩ | hdropped
  · exact hsame
  · exfalso
    apply h.last
    rw [hdropped]
    exact List.getLast?_concat

theorem dottedI_not_mem_slug (s : Text) : 'İ' ∉ slug s := by
  intro h
  obtain ⟨d, -, -, hd⟩ := (mem_slug_iff (by decide)).1 h
  exact Text.dottedI_not_mem_lowerChar d hd

theorem combiningDot_mem_slug_iff {s : Text} : '\u0307' ∈ slug s ↔ 'İ' ∈ s := by
  rw [mem_slug_iff (by decide)]
  constructor
  · rintro ⟨d, hd, halphanumeric, hdot⟩
    by_cases hdotted : d = 'İ'
    · exact hdotted ▸ hd
    · obtain ⟨e, he, -, himage⟩ := exists_lowerChar_eq hdotted
      rw [he, List.mem_singleton] at hdot
      have hfalse : isAlphanumeric '\u0307' = false := by decide +kernel
      rw [hdot, himage halphanumeric] at hfalse
      cases hfalse
  · intro h
    exact ⟨'İ', h, by decide +kernel, by decide⟩

theorem isAlphanumeric_of_mem_slug {s : Text} (h : 'İ' ∉ s) {c : Char} (hc : c ∈ slug s) :
    isAlphanumeric c = true ∧ lowerChar c = [c] ∨ c = '-' := by
  by_cases hdash : c = '-'
  · exact .inr hdash
  obtain ⟨d, hd, halphanumeric, hmem⟩ := (mem_slug_iff hdash).1 hc
  have hdotted : d ≠ 'İ' := by
    rintro rfl
    exact h hd
  obtain ⟨e, he, hfixed, himage⟩ := exists_lowerChar_eq hdotted
  rw [he, List.mem_singleton] at hmem
  subst hmem
  exact .inl ⟨himage halphanumeric, hfixed⟩

theorem isNormal_slug {s : Text} (h : 'İ' ∉ s) : IsNormal (slug s) where
  toSingleDashes := singleDashes_slug s
  isAlphanumeric_or_dash := by
    intro c hc
    rcases isAlphanumeric_of_mem_slug h hc with ⟨halphanumeric, -⟩ | hdash
    · exact .inl halphanumeric
    · exact .inr hdash

theorem slug_slug {s : Text} (h : 'İ' ∉ s) : slug (slug s) = slug s := by
  apply slug_eq_self (isNormal_slug h)
  intro c hc
  rcases isAlphanumeric_of_mem_slug h hc with ⟨-, hfixed⟩ | rfl
  · exact hfixed
  · rfl

/-- The dashes of a slug stand one at a time between its characters. It is in normal form, and it is
its own slug, exactly if the text has no capital I with a dot above. The slug of a slug always is. -/
theorem isNormal_slug_iff (s : Text) :
    SingleDashes (slug s) ∧ (IsNormal (slug s) ↔ 'İ' ∉ s) ∧ (slug (slug s) = slug s ↔ 'İ' ∉ s) ∧
      IsNormal (slug (slug s)) ∧ slug (slug (slug s)) = slug (slug s) := by
  have hdotted := dottedI_not_mem_slug s
  refine ⟨singleDashes_slug s, ⟨?_, isNormal_slug⟩, ⟨?_, slug_slug⟩, isNormal_slug hdotted,
    slug_slug hdotted⟩
  · intro hnormal hmem
    have hdot := hnormal.isAlphanumeric_or_dash _ (combiningDot_mem_slug_iff.2 hmem)
    revert hdot
    decide +kernel
  · intro hsame hmem
    have hdot := combiningDot_mem_slug_iff.2 hmem
    rw [← hsame, combiningDot_mem_slug_iff] at hdot
    exact hdotted hdot

/-- The slug of a capital I with a dot above keeps the combining dot, and its own slug does not. -/
theorem not_isNormal_slug_dottedI :
    slug "İ" = ['i', '\u0307'] ∧ ¬ IsNormal (slug "İ") ∧ slug (slug "İ") = "i" ∧
      slug (slug "İ") ≠ slug "İ" := by
  refine ⟨by decide +kernel, ?_, by decide +kernel, by decide +kernel⟩
  intro hnormal
  have hdot := hnormal.isAlphanumeric_or_dash '\u0307' (by decide +kernel)
  revert hdot
  decide +kernel

end Slug

end Galley
