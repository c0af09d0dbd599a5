import Galley.Proofs.Text
import Mathlib.Data.List.Infix

/-!
# Cut texts

A text that is cut at a separator is the pieces with the separator put back between them
(`joinWith_splitOn`), and no piece holds the separator (`not_isInfix_of_mem_splitOn`). If the
separator cannot overlap with itself, there is one piece more than there are places where it stands
(`length_splitOn`).
-/

namespace Galley.Text

variable {p s u : Text}

/-! ## One cut -/

theorem splitFrom_ne_nil (p : Text) (skip : Nat) (s : Text) : splitFrom p skip s ≠ [] := by
  have hcons : ∀ (c : Char) (ts : List Text), consHead c ts ≠ [] := by
    intro c ts
    cases ts <;> exact List.cons_ne_nil _ _
  fun_induction splitFrom p skip s with
  | case1 => exact List.cons_ne_nil _ _
  | case2 skip c s ih => exact ih
  | case3 => exact List.cons_ne_nil _ _
  | case4 => exact hcons _ _

theorem consHead_eq_modifyHead (c : Char) {ts : List Text} (h : ts ≠ []) :
    consHead c ts = ts.modifyHead (c :: ·) := by
  cases ts with
  | nil => exact absurd rfl h
  | cons t ts => rfl

/-- A search that finds nothing where `u` stands leaves `u` in one piece. -/
theorem splitFrom_append (h : ∀ v, v <:+ u → v ≠ [] → ¬ p <+: v ++ s) :
    splitFrom p 0 (u ++ s) = (splitFrom p 0 s).modifyHead (u ++ ·) := by
  induction u with
  | nil => exact (congrFun List.modifyHead_id _).symm
  | cons c u ih =>
    have hprefix : ¬ hasPrefix p (c :: (u ++ s)) = true := by
      intro hfound
      obtain ⟨rest, hrest⟩ := hasPrefix_iff.1 hfound
      exact h (c :: u) List.suffix_rfl (List.cons_ne_nil c u) ⟨rest, hrest.symm⟩
    have hbehind := ih fun v hv hne => h v (hv.trans (List.suffix_cons c u)) hne
    rw [List.cons_append, splitFrom, if_neg hprefix,
      consHead_eq_modifyHead c (splitFrom_ne_nil p 0 _), hbehind, List.modifyHead_modifyHead]
    rfl

theorem splitFrom_skip (p u s : Text) : splitFrom p u.length (u ++ s) = splitFrom p 0 s := by
  induction u with
  | nil => rfl
  | cons c u ih => exact ih

theorem splitFrom_self (hp : p ≠ []) : splitFrom p 0 (p ++ s) = [] :: splitFrom p 0 s := by
  obtain ⟨c, q, rfl⟩ := List.exists_cons_of_ne_nil hp
  have hprefix : hasPrefix (c :: q) (c :: (q ++ s)) = true := hasPrefix_iff.2 ⟨s, rfl⟩
  rw [List.cons_append, splitFrom, if_pos hprefix]
  exact congrArg _ (splitFrom_skip (c :: q) q s)

theorem splitOn_of_not_hasInfix (h : hasInfix p s = false) : splitOn p s = [s] := by
  have hkept := splitFrom_append (p := p) (u := s) (s := []) fun v hv _ hprefix => by
    rw [List.append_nil] at hprefix
    have hinfix := hprefix.isInfix.trans hv.isInfix
    rw [hasInfix_iff.2 hinfix] at h
    cases h
  rw [List.append_nil] at hkept
  rw [splitOn, hkept]
  simp [splitFrom]

/-! ## All pieces -/

theorem joinWith_consHead (sep : Text) (c : Char) (ts : List Text) :
    joinWith sep (consHead c ts) = c :: joinWith sep ts := by
  cases ts with
  | nil => rfl
  | cons t ts => cases ts <;> rfl

theorem joinWith_splitFrom (hp : p ≠ []) (skip : Nat) (s : Text) :
    joinWith p (splitFrom p skip s) = s.drop skip := by
  fun_induction splitFrom p skip s with
  | case1 skip => cases skip <;> rfl
  | case2 skip c s ih => exact ih
  | case3 c s hprefix ih =>
    obtain ⟨rest, hrest⟩ := hasPrefix_iff.1 hprefix
    obtain ⟨piece, pieces, hpieces⟩ :=
      List.exists_cons_of_ne_nil (splitFrom_ne_nil p (p.length - 1) s)
    rw [drop_of_cons_eq_append hp hrest] at ih
    rw [hpieces] at ih ⊢
    rw [joinWith, ih, List.nil_append, List.drop_zero, hrest]
    exact fun h => nomatch h
  | case4 c s hprefix ih =>
    rw [joinWith_consHead, ih]
    rfl

/-- The pieces with the separator between them are the text. -/
theorem joinWith_splitOn (hp : p ≠ []) (s : Text) : joinWith p (splitOn p s) = s :=
  joinWith_splitFrom hp 0 s

/-- The search goes from the left, so the first piece ends before the separator stands anywhere. -/
theorem not_isInfix_of_mem_splitFrom (hp : p ≠ []) (skip : Nat) (s : Text) :
    (∀ piece ∈ splitFrom p skip s, ¬ p <:+: piece) ∧
      ∀ first ∈ (splitFrom p skip s).head?, first <+: s.drop skip := by
  fun_induction splitFrom p skip s with
  | case1 skip =>
    refine ⟨fun piece hpiece => ?_, fun first hfirst => ?_⟩
    · obtain rfl := List.mem_singleton.1 hpiece
      exact fun h => hp (List.infix_nil.1 h)
    · obtain rfl := Option.some.inj hfirst
      exact List.nil_prefix
  | case2 skip c s ih => exact ih
  | case3 c s hprefix ih =>
    refine ⟨List.forall_mem_cons.2 ⟨fun h => hp (List.infix_nil.1 h), ih.1⟩, fun first hfirst => ?_⟩
    obtain rfl := Option.some.inj hfirst
    exact List.nil_prefix
  | case4 c s hprefix ih =>
    obtain ⟨piece, pieces, hpieces⟩ := List.exists_cons_of_ne_nil (splitFrom_ne_nil p 0 s)
    rw [hpieces] at ih ⊢
    obtain ⟨hall, hfirst⟩ := ih
    rw [List.forall_mem_cons] at hall
    have hpiece : c :: piece <+: c :: s := (List.prefix_cons_inj c).2 (hfirst piece rfl)
    refine ⟨List.forall_mem_cons.2 ⟨fun h => ?_, hall.2⟩, fun first hhead => ?_⟩
    · rcases List.infix_cons_iff.1 h with hstart | hinside
      · obtain ⟨rest, hrest⟩ := hstart.trans hpiece
        exact hprefix (hasPrefix_iff.2 ⟨rest, hrest.symm⟩)
      · exact hall.1 hinside
    · obtain rfl := Option.some.inj hhead
      exact hpiece

/-- No piece holds the separator. -/
theorem not_isInfix_of_mem_splitOn (hp : p ≠ []) {piece : Text} (h : piece ∈ splitOn p s) :
    ¬ p <:+: piece :=
  (not_isInfix_of_mem_splitFrom hp 0 s).1 piece h

/-! ## Counting -/

/-- The number of places where `p` stands in a text. -/
def places (p s : Text) : Nat := s.tails.countP (hasPrefix p)

theorem places_pos_iff : 0 < places p s ↔ p <:+: s := by
  rw [places, List.countP_pos_iff, List.infix_iff_prefix_suffix]
  constructor
  · rintro ⟨t, ht, hprefix⟩
    obtain ⟨rest, rfl⟩ := hasPrefix_iff.1 hprefix
    exact ⟨_, List.prefix_append p rest, (List.mem_tails ..).1 ht⟩
  · rintro ⟨t, ⟨rest, rfl⟩, hsuffix⟩
    exact ⟨_, (List.mem_tails ..).2 hsuffix, hasPrefix_iff.2 ⟨rest, rfl⟩⟩

theorem places_cons (p : Text) (c : Char) (s : Text) :
    places p (c :: s) = places p s + if hasPrefix p (c :: s) then 1 else 0 := by
  rw [places, List.tails_cons, List.countP_cons]
  rfl

theorem places_append {x : Char} {q : Text} (hu : x ∉ u) (s : Text) :
    places (x :: q) (u ++ s) = places (x :: q) s := by
  induction u with
  | nil => rfl
  | cons c u ih =>
    rw [List.mem_cons, not_or] at hu
    have hprefix : hasPrefix (x :: q) (c :: (u ++ s)) = false := by
      rw [Bool.eq_false_iff]
      intro hfound
      obtain ⟨rest, hrest⟩ := hasPrefix_iff.1 hfound
      exact hu.1 (List.cons.inj hrest).1.symm
    rw [List.cons_append, places_cons, hprefix, ih hu.2]
    rfl

theorem length_splitFrom {x : Char} {q : Text} (hq : x ∉ q) (skip : Nat) (s : Text) :
    (splitFrom (x :: q) skip s).length = places (x :: q) (s.drop skip) + 1 := by
  have hp : x :: q ≠ [] := List.cons_ne_nil x q
  fun_induction splitFrom (x :: q) skip s with
  | case1 skip =>
    rw [List.drop_nil]
    rfl
  | case2 skip c s ih => exact ih
  | case3 c s hprefix ih =>
    obtain ⟨rest, hrest⟩ := hasPrefix_iff.1 hprefix
    rw [drop_of_cons_eq_append hp hrest] at ih
    have hplaces : places (x :: q) (c :: s) = places (x :: q) rest + 1 := by
      rw [places_cons, if_pos hprefix]
      obtain ⟨-, hs⟩ := List.cons.inj hrest
      rw [hs]
      exact congrArg (· + 1) (places_append hq rest)
    rw [List.length_cons, ih, List.drop_zero, hplaces]
  | case4 c s hprefix ih =>
    rw [consHead_eq_modifyHead c (splitFrom_ne_nil _ 0 s), List.length_modifyHead, ih,
      List.drop_zero, List.drop_zero, places_cons, if_neg hprefix]

theorem length_splitOn {x : Char} {q : Text} (hq : x ∉ q) (s : Text) :
    (splitOn (x :: q) s).length = places (x :: q) s + 1 :=
  length_splitFrom hq 0 s

end Galley.Text
