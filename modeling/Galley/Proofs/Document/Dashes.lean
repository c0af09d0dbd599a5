import Galley.Proofs.Document.TagList

/-!
# Dashes of written values

Three dashes are written as an em dash and two as an en dash, if they are a whole run: a single dash
and the dashes of a longer run stay as they are. `SetsDashes` says this of a text that is cut into
its maximal runs of dashes and the characters between them. Each text has one such form, which is the
converted text (`setsDashes_iff`). An entity has no dash and separates the runs around it, so it is
never changed, and a converted text has no run of two or three dashes left.
-/

namespace Galley.Document.Token

variable {s t : Text}

/-- Whether `t` is `s` with each maximal run of exactly three dashes written as an em dash and each of
exactly two as an en dash. No dash follows a run, so none is cut into two. -/
inductive SetsDashes : Text → Text → Prop
  | nil : SetsDashes [] []
  | other {c : Char} {s t : Text} (hc : c ≠ '-') (h : SetsDashes s t) : SetsDashes (c :: s) (c :: t)
  | em {s t : Text} (hs : s.head? ≠ some '-') (h : SetsDashes s t) :
      SetsDashes (("---" : Text) ++ s) (("&mdash;" : Text) ++ t)
  | en {s t : Text} (hs : s.head? ≠ some '-') (h : SetsDashes s t) :
      SetsDashes (("--" : Text) ++ s) (("&ndash;" : Text) ++ t)
  | kept {n : Nat} {s t : Text} (hn : n = 1 ∨ 4 ≤ n) (hs : s.head? ≠ some '-')
      (h : SetsDashes s t) : SetsDashes (List.replicate n '-' ++ s) (List.replicate n '-' ++ t)

namespace SetsDashes

theorem append_of_not_mem (h : SetsDashes s t) {w : Text} (hw : '-' ∉ w) :
    SetsDashes (w ++ s) (w ++ t) := by
  induction w with
  | nil => exact h
  | cons c w ih =>
    rw [List.mem_cons, not_or] at hw
    exact other (Ne.symm hw.1) (ih hw.2)

theorem run (h : SetsDashes s t) (hs : s.head? ≠ some '-') (n : Nat) :
    SetsDashes (List.replicate n '-' ++ s) (dashRun n ++ t) := by
  unfold dashRun
  split
  · next hthree =>
    subst hthree
    exact em hs h
  split
  · next htwo =>
    subst htwo
    exact en hs h
  · next hthree htwo =>
    by_cases hzero : n = 0
    · rw [hzero]
      exact h
    · exact kept (by omega) hs h

theorem head?_ne (h : SetsDashes s t) (hs : s.head? ≠ some '-') : t.head? ≠ some '-' := by
  cases h with
  | nil => exact hs
  | other hc h =>
    intro heq
    exact hc (Option.some.inj heq)
  | em _ h => exact absurd rfl hs
  | en _ h => exact absurd rfl hs
  | @kept n _ _ hn _ h =>
    obtain ⟨m, rfl⟩ : ∃ m, n = m + 1 := Nat.exists_eq_add_one.2 (by omega)
    exact absurd rfl hs

theorem again (h : SetsDashes s t) : SetsDashes t t := by
  induction h with
  | nil => exact nil
  | other hc _ ih => exact other hc ih
  | em _ _ ih => exact ih.append_of_not_mem (by decide)
  | en _ _ ih => exact ih.append_of_not_mem (by decide)
  | kept hn hs h ih => exact kept hn (h.head?_ne hs) ih

end SetsDashes

theorem convertDashesFrom_of_head?_ne (hs : s.head? ≠ some '-') (run : Nat) :
    convertDashesFrom run s = dashRun run ++ convertDashes s := by
  cases s with
  | nil => exact (List.append_nil _).symm
  | cons c s =>
    have hc : c ≠ '-' := fun heq => hs (congrArg some heq)
    rw [convertDashes, convertDashesFrom, convertDashesFrom, if_neg hc, if_neg hc]
    rfl

theorem convertDashesFrom_replicate_append (run n : Nat) (s : Text) :
    convertDashesFrom run (List.replicate n '-' ++ s) = convertDashesFrom (run + n) s := by
  induction n generalizing run with
  | zero => rfl
  | succ n ih =>
    rw [List.replicate_succ, List.cons_append, convertDashesFrom, if_pos rfl, ih]
    congr 1
    omega

theorem convertDashes_run (hs : s.head? ≠ some '-') (n : Nat) :
    convertDashes (List.replicate n '-' ++ s) = dashRun n ++ convertDashes s := by
  rw [convertDashes, convertDashesFrom_replicate_append, Nat.zero_add]
  exact convertDashesFrom_of_head?_ne hs n

/-- A scan that has read some dashes goes on as if they stood before the rest of the text. -/
theorem setsDashes_convertDashesFrom (run : Nat) (s : Text) :
    SetsDashes (List.replicate run '-' ++ s) (convertDashesFrom run s) := by
  induction s generalizing run with
  | nil =>
    have hrun := SetsDashes.nil.run (by simp) run
    rwa [List.append_nil (dashRun run)] at hrun
  | cons c s ih =>
    rw [convertDashesFrom]
    by_cases hc : c = '-'
    · rw [if_pos hc, hc, ← List.singleton_append, ← List.append_assoc, ← List.replicate_succ']
      exact ih (run + 1)
    · rw [if_neg hc]
      apply SetsDashes.run (.other hc (ih 0))
      intro heq
      exact hc (Option.some.inj heq)

/-- The converted text is the only one that has the dashes of a text set. -/
theorem setsDashes_iff : SetsDashes s t ↔ convertDashes s = t := by
  constructor
  · intro h
    induction h with
    | nil => rfl
    | @other c s t hc _ ih =>
      have hchar : convertDashes (c :: s) = c :: convertDashes s := by
        rw [convertDashes, convertDashesFrom, if_neg hc]
        rfl
      rw [hchar, ih]
    | em hs _ ih =>
      have hrun := convertDashes_run hs 3
      rw [ih] at hrun
      exact hrun
    | en hs _ ih =>
      have hrun := convertDashes_run hs 2
      rw [ih] at hrun
      exact hrun
    | @kept n s t hn hs _ ih =>
      have hdashes : dashRun n = List.replicate n '-' := by
        rw [dashRun, if_neg (by omega), if_neg (by omega)]
      rw [convertDashes_run hs, hdashes, ih]
  · rintro rfl
    exact setsDashes_convertDashesFrom 0 s

example : convertDashes "-a--b---c----d" = "-a&ndash;b&mdash;c----d" := by decide

theorem dash_not_mem_valueChar {c : Char} (hc : c ≠ '-') : '-' ∉ valueChar c := by
  rw [valueChar_eq]
  intro hmem
  obtain ⟨d, hd, hdash⟩ := List.mem_flatMap.1 hmem
  have hentities : ∀ e ∈ entities, '-' ∉ e.1 := by decide
  rcases markupChar_cases d with hentity | ⟨hchar, -⟩
  · exact hentities _ hentity hdash
  · rw [hchar, List.mem_singleton] at hdash
    subst hdash
    unfold lineChar at hd
    split at hd
    · cases hd
    split at hd
    · exact absurd hd (by decide)
    · exact hc (List.mem_singleton.1 hd).symm

/-- Converting the dashes of a text replaces its maximal runs of three dashes and of two and nothing
else. Done twice it changes nothing more, and it keeps each entity that a character of a value is
written as. -/
theorem convertDashes_exact (s : Text) :
    (∀ t, SetsDashes s t ↔ convertDashes s = t) ∧
      convertDashes (convertDashes s) = convertDashes s ∧
      ∀ c a b, (valueChar c).head? = some '&' →
        convertDashes (a ++ (valueChar c ++ b)) =
          convertDashes a ++ (valueChar c ++ convertDashes b) := by
  refine ⟨fun t => setsDashes_iff, ?_, ?_⟩
  · have hset : SetsDashes s (convertDashes s) := setsDashes_iff.2 rfl
    exact setsDashes_iff.1 hset.again
  · intro c a b hampersand
    have hc : c ≠ '-' := by
      rintro rfl
      exact absurd hampersand (by decide)
    have hne : valueChar c ≠ [] := by
      intro hnil
      rw [hnil] at hampersand
      cases hampersand
    exact convertDashesFrom_append_append (dash_not_mem_valueChar hc) hne 0 a b

/-- The entity of an ampersand between two runs of dashes. -/
theorem convertDashes_exact_ampersand :
    (valueChar '&').head? = some '&' ∧
      convertDashes (("--" : Text) ++ (valueChar '&' ++ ("---" : Text))) =
        convertDashes "--" ++ (valueChar '&' ++ convertDashes "---") :=
  ⟨by decide, (convertDashes_exact "--&amp;---").2.2 '&' "--" "---" (by decide)⟩

end Galley.Document.Token
