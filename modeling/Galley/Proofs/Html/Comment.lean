import Galley.Proofs.Html.Nesting

/-!
# Comments replaced

A search for a comment in a page finds exactly the parts that are this comment: nothing else has a
bracket in the right place. So replacing a comment by a balanced text keeps every walk.
-/

namespace Galley.Html

open Galley (Text)

abbrev commentSource (c : Text) : Text := (Part.comment c).source

/-! ## Searching a page -/

theorem eq_of_append_bracket {a b r t : Text} (ha : isPlain a = true) (hb : isPlain b = true)
    (h : a ++ '>' :: r = b ++ '>' :: t) : a = b := by
  induction a generalizing b with
  | nil =>
    cases b with
    | nil => rfl
    | cons d b =>
      obtain ⟨rfl, -⟩ := List.cons.inj h
      exact absurd hb (by simp [isBracket])
  | cons c a ih =>
    cases b with
    | nil =>
      obtain ⟨rfl, -⟩ := List.cons.inj h
      exact absurd ha (by simp [isBracket])
    | cons d b =>
      obtain ⟨rfl, htail⟩ := List.cons.inj h
      rw [isPlain_cons, Bool.and_eq_true] at ha hb
      rw [ih ha.2 hb.2 htail]

section replace

variable {p r s u : Text}

theorem replaceFrom_skip (u : Text) : Text.replaceFrom p r u.length (u ++ s) =
    Text.replaceFrom p r 0 s := by
  induction u with
  | nil => rfl
  | cons c u ih => exact ih

theorem replaceFrom_append (h : ∀ b, b <:+ u → b ≠ [] → ¬ p <+: b ++ s) :
    Text.replaceFrom p r 0 (u ++ s) = u ++ Text.replaceFrom p r 0 s := by
  induction u with
  | nil => rfl
  | cons c u ih =>
    have hprefix : ¬ Text.hasPrefix p (c :: (u ++ s)) = true := by
      intro hfound
      obtain ⟨rest, hrest⟩ := Text.hasPrefix_iff.1 hfound
      exact h (c :: u) List.suffix_rfl (List.cons_ne_nil c u) ⟨rest, hrest.symm⟩
    rw [List.cons_append, Text.replaceFrom, if_neg hprefix]
    exact congrArg _ (ih fun b hb hne => h b (hb.trans (List.suffix_cons c u)) hne)

theorem replaceFrom_of_not_mem {c : Char} (hp : p.head? = some c) (hu : c ∉ u) :
    Text.replaceFrom p r 0 (u ++ s) = u ++ Text.replaceFrom p r 0 s := by
  obtain ⟨q, rfl⟩ := List.head?_eq_some_iff.1 hp
  refine replaceFrom_append fun b hb hne hfound => ?_
  obtain ⟨d, b, rfl⟩ := List.exists_cons_of_ne_nil hne
  obtain ⟨rest, hrest⟩ := hfound
  obtain ⟨rfl, -⟩ := List.cons.inj hrest
  exact hu (hb.subset List.mem_cons_self)

theorem replaceFrom_plain (hu : isPlain u = true) :
    Text.replaceFrom ('<' :: p) r 0 (u ++ s) = u ++ Text.replaceFrom ('<' :: p) r 0 s :=
  replaceFrom_of_not_mem rfl (not_mem_of_isPlain hu (by decide))

theorem replaceFrom_self (hp : p ≠ []) : Text.replaceFrom p r 0 (p ++ s) =
    r ++ Text.replaceFrom p r 0 s := by
  obtain ⟨c, p, rfl⟩ := List.exists_cons_of_ne_nil hp
  have hprefix : Text.hasPrefix (c :: p) (c :: (p ++ s)) = true := Text.hasPrefix_iff.2 ⟨s, rfl⟩
  rw [List.cons_append, Text.replaceFrom, if_pos hprefix]
  exact congrArg _ (replaceFrom_skip p)

theorem not_prefix_bracketed {a b v : Text} (ha : isPlain a = true) (hb : isPlain b = true)
    (hne : a ≠ b) (hv : v <:+ '<' :: (b ++ ['>'])) (hnil : v ≠ []) :
    ¬ '<' :: (a ++ ['>']) <+: v ++ s := by
  rintro ⟨rest, hrest⟩
  rcases List.suffix_cons_iff.1 hv with rfl | hv
  · simp only [List.cons_append, List.append_assoc, List.nil_append, List.cons.injEq,
      true_and] at hrest
    exact hne (eq_of_append_bracket ha hb hrest)
  · obtain ⟨c, v, rfl⟩ := List.exists_cons_of_ne_nil hnil
    obtain ⟨rfl, -⟩ := List.cons.inj hrest
    rcases List.mem_append.1 (hv.subset List.mem_cons_self) with hmem | hmem
    · exact not_mem_of_isPlain hb (by decide) hmem
    · exact absurd hmem (by decide)

theorem replaceFrom_bracketed {a b : Text} (ha : isPlain a = true) (hb : isPlain b = true)
    (hne : a ≠ b) : Text.replaceFrom ('<' :: (a ++ ['>'])) r 0 ('<' :: (b ++ ['>']) ++ s) =
      '<' :: (b ++ ['>']) ++ Text.replaceFrom ('<' :: (a ++ ['>'])) r 0 s :=
  replaceFrom_append fun _ hv hnil => not_prefix_bracketed ha hb hne hv hnil

end replace

/-- Replacing a comment replaces the parts that are this comment. -/
theorem replace_sources {c : Text} (hc : isPlain c = true) (r : Text) {ps : List Part}
    (hps : ps.all Part.isSound = true) :
    Text.replace (commentSource c) r (Part.sources ps) =
      ps.flatMap fun p => if p = .comment c then r else p.source := by
  have hbody := Part.isPlain_commentBody hc
  unfold Text.replace
  induction ps with
  | nil => rfl
  | cons p ps ih =>
    obtain ⟨hp, hps⟩ : p.isSound = true ∧ ps.all Part.isSound = true := by simpa using hps
    rw [Part.sources_cons, List.flatMap_cons, ← ih hps]
    cases p with
    | char d => exact replaceFrom_plain (u := [d]) (by simpa [Part.isSound] using hp)
    | tag t =>
      rw [if_neg (by simp)]
      refine replaceFrom_bracketed hbody (t.isPlain_body hp) ?_
      intro heq
      have htag := Part.ofBody?_body hp
      rw [← heq, Part.ofBody?_commentBody] at htag
      cases Option.some.inj htag
    | comment d =>
      by_cases hd : d = c
      · subst hd
        rw [if_pos rfl]
        exact replaceFrom_self (by simp [Part.source])
      · rw [if_neg (by simpa using hd)]
        refine replaceFrom_bracketed hbody (Part.isPlain_commentBody hp) ?_
        intro heq
        have hcomment := Part.ofBody?_commentBody d
        rw [← heq, Part.ofBody?_commentBody] at hcomment
        exact hd (Part.comment.inj (Option.some.inj hcomment)).symm

theorem Walk.replace {html c r : Text} {s s' : List Text} (h : Walk html s s')
    (hc : isPlain c = true) (hr : Balanced r) :
    Walk (Text.replace (commentSource c) r html) s s' := by
  obtain ⟨ts, hts, ho⟩ := h
  obtain ⟨ps, rfl, hps, rfl⟩ := visibleTags?_eq_some_iff.1 hts
  rw [replace_sources hc r hps]
  clear hts
  induction ps generalizing s with
  | nil => exact ⟨[], rfl, ho⟩
  | cons p ps ih =>
    obtain ⟨hp, hrest⟩ : p.isSound = true ∧ ps.all Part.isSound = true := by simpa using hps
    rw [List.flatMap_cons]
    split
    · next hcomment =>
      subst hcomment
      exact (hr s).append (ih hrest ho)
    · have hread : visibleTags? p.source = some p.tag?.toList :=
        visibleTags?_eq_some_iff.2 ⟨[p], by simp, by simpa using hp, by cases p <;> rfl⟩
      cases p with
      | tag t =>
        obtain ⟨s₁, hs₁, ho⟩ := Option.bind_eq_some_iff.1 ho
        have hstep : Walk (Part.tag t).source s s₁ := ⟨[t], hread, by simp [openAfter?, hs₁]⟩
        exact hstep.append (ih hrest ho)
      | char d => exact Walk.append ⟨[], hread, rfl⟩ (ih hrest ho)
      | comment d => exact Walk.append ⟨[], hread, rfl⟩ (ih hrest ho)

end Galley.Html
