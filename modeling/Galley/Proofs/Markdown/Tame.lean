import Galley.Markdown.CharRef
import Galley.Markdown.Line
import Galley.Proofs.Markdown.Line
import Galley.Proofs.Text

/-!
# Tame texts

In a tame text each backslash escapes a dollar sign, and each ampersand begins an entity that
stands for a bracket or a quote. So resolving a tame text leaves no backslash (`Tame.resolve`), and
a part of it that is taken as it stands has a dollar sign where it has a backslash (`Dollared`).
Parts of a tame text are tame unless a cut goes through an escape or an entity.
-/

namespace Galley.Markdown

/-- What stands behind the ampersand of the entities that escaping writes, apart from the one of the
ampersand itself. -/
def entityTails : List Text := ["lt;", "gt;", "quot;", "#39;"]

/-- Each backslash of the text escapes a dollar sign, and each ampersand begins an entity. -/
def Tame : Text → Prop
  | [] => True
  | c :: s =>
    (c = '\\' → s.head? = some '$') ∧ (c = '&' → ∃ tail ∈ entityTails, tail <+: s) ∧ Tame s

instance decidableTame : (s : Text) → Decidable (Tame s)
  | [] => isTrue trivial
  | c :: s =>
    have := decidableTame s
    inferInstanceAs (Decidable
      ((c = '\\' → s.head? = some '$') ∧ (c = '&' → ∃ tail ∈ entityTails, tail <+: s) ∧ Tame s))

/-- The characters that stand in an escape or an entity behind its first one. -/
def inside : Text := "$lt;gquo#39"

theorem mem_inside_of_mem_entityTails {tail : Text} {c : Char} (htail : tail ∈ entityTails)
    (hc : c ∈ tail) : c ∈ inside := by
  have hall : entityTails.all (·.all (inside.contains ·)) = true := by decide
  exact List.contains_iff_mem.1 (List.all_eq_true.1 (List.all_eq_true.1 hall tail htail) c hc)

/-- A tame text may be cut before `s`. -/
def Cut (s : Text) : Prop := ∀ c, s.head? = some c → c ∉ inside

/-- A text that has a backslash has a dollar sign too. -/
def Dollared (s : Text) : Prop := '\\' ∈ s → '$' ∈ s

theorem cut_nil : Cut [] := fun _ h => nomatch h

theorem cut_cons {c : Char} (h : c ∉ inside) (s : Text) : Cut (c :: s) := by
  intro d hd
  rwa [← Option.some.inj hd]

namespace Dollared

variable {s t : Text}

theorem of_not_mem (h : '\\' ∉ s) : Dollared s := fun hmem => absurd hmem h

theorem not_mem (h : Dollared s) (hs : '$' ∉ s) : '\\' ∉ s := fun hmem => hs (h hmem)

theorem append (hs : Dollared s) (ht : Dollared t) : Dollared (s ++ t) := by
  intro h
  rcases List.mem_append.1 h with h | h
  · exact List.mem_append_left t (hs h)
  · exact List.mem_append_right s (ht h)

end Dollared

namespace Tame

variable {s t : Text} {c : Char}

theorem nil : Tame [] := trivial

theorem of_not_mem (hbackslash : '\\' ∉ s) (hampersand : '&' ∉ s) : Tame s := by
  induction s with
  | nil => exact nil
  | cons c s ih =>
    rw [List.mem_cons, not_or] at hbackslash hampersand
    exact ⟨fun h => absurd h.symm hbackslash.1, fun h => absurd h.symm hampersand.1,
      ih hbackslash.2 hampersand.2⟩

theorem tail (h : Tame (c :: s)) : Tame s := h.2.2

theorem of_append (h : Tame (s ++ t)) : Tame t := by
  induction s with
  | nil => exact h
  | cons c s ih => exact ih h.tail

theorem of_suffix (h : Tame s) (ht : t <:+ s) : Tame t := by
  obtain ⟨r, rfl⟩ := ht
  exact h.of_append

theorem drop (h : Tame s) (n : Nat) : Tame (s.drop n) := h.of_suffix (List.drop_suffix n s)

theorem dropWhile (h : Tame s) (p : Char → Bool) : Tame (s.dropWhile p) :=
  h.of_suffix (List.dropWhile_suffix p)

theorem append (hs : Tame s) (ht : Tame t) : Tame (s ++ t) := by
  induction s with
  | nil => exact ht
  | cons c s ih =>
    refine ⟨fun hc => ?_, fun hc => ?_, ih hs.tail⟩
    · show (s ++ t).head? = some '$'
      rw [List.head?_append, hs.1 hc, Option.some_or]
    · obtain ⟨tail, htail, hprefix⟩ := hs.2.1 hc
      exact ⟨tail, htail, hprefix.trans (List.prefix_append s t)⟩

theorem of_cut (h : Tame (s ++ t)) (ht : Cut t) : Tame s := by
  induction s with
  | nil => exact nil
  | cons c s ih =>
    refine ⟨fun hc => ?_, fun hc => ?_, ih h.tail⟩
    · have hhead : (s ++ t).head? = some '$' := h.1 hc
      rw [List.head?_append, Option.or_eq_some_iff] at hhead
      rcases hhead with hs | ⟨-, ht'⟩
      · exact hs
      · exact absurd (by decide) (ht '$' ht')
    · obtain ⟨tail, htail, r, hr⟩ := h.2.1 hc
      refine ⟨tail, htail, ?_⟩
      rcases List.append_eq_append_iff.1 hr with ⟨u, rfl, -⟩ | ⟨u, hu, hr'⟩
      · exact List.prefix_append tail u
      · -- the entity reaches over the cut, so `t` begins with a character of it
        cases u with
        | nil => exact ⟨[], by simpa using hu⟩
        | cons d u =>
          have hd : d ∉ inside := ht d (by rw [hr']; rfl)
          have hmem : d ∈ tail := by simp [hu]
          exact absurd (mem_inside_of_mem_entityTails htail hmem) hd

theorem takeWhile (h : Tame s) {p : Char → Bool} (hp : inside.all p = true) :
    Tame (s.takeWhile p) := by
  rw [← List.takeWhile_append_dropWhile (p := p) (l := s)] at h
  refine h.of_cut fun c hc hmem => ?_
  have hfalse := List.head?_dropWhile_not p s
  rw [hc] at hfalse
  simp [List.all_eq_true.1 hp c hmem] at hfalse

theorem dropEndWhile (h : Tame s) {p : Char → Bool} (hp : inside.any p = false) :
    Tame (Text.dropEndWhile p s) := by
  obtain ⟨b, hall, hb⟩ := Text.exists_append_dropEndWhile p s
  rw [hb] at h
  refine h.of_cut fun c hc hmem => ?_
  have hpc : p c = true := List.all_eq_true.1 hall c (List.mem_of_mem_head? hc)
  exact List.any_eq_false.1 hp c hmem hpc

theorem head?_of_backslash (h : Tame (s ++ '\\' :: t)) : t.head? = some '$' := h.of_append.1 rfl

theorem dollared_of_append (h : Tame (s ++ t)) (hlast : s.getLast? ≠ some '\\') : Dollared s := by
  intro hmem
  obtain ⟨a, b, rfl⟩ := List.append_of_mem hmem
  rw [List.append_assoc] at h
  have hhead : (b ++ t).head? = some '$' := head?_of_backslash h
  cases b with
  | nil => exact absurd (by simp) hlast
  | cons d b =>
    obtain rfl : d = '$' := Option.some.inj hhead
    simp

theorem dollared (h : Tame s) : Dollared s := by
  intro hmem
  obtain ⟨a, b, rfl⟩ := List.append_of_mem hmem
  have hb : '$' ∈ b := List.mem_of_mem_head? h.head?_of_backslash
  simp [hb]

/-! ## Resolving -/

theorem backslash_not_mem_of_atStart? {value rest : Text} (h : Tame s)
    (hs : CharRef.atStart? s = some (value, rest)) : '\\' ∉ value := by
  have hentities : ∀ tail ∈ entityTails, ∃ value, '\\' ∉ value ∧
      ∀ t, CharRef.atStart? ('&' :: (tail ++ t)) = some (value, t) := by
    simp only [entityTails, List.forall_mem_cons, List.not_mem_nil, false_implies, implies_true,
      and_true]
    exact ⟨⟨['<'], by decide, fun _ => rfl⟩, ⟨['>'], by decide, fun _ => rfl⟩,
      ⟨['"'], by decide, fun _ => rfl⟩, ⟨['\''], by decide, fun _ => rfl⟩⟩
  cases s with
  | nil => cases hs
  | cons c s =>
    have hc : c = '&' := by
      unfold CharRef.atStart? at hs
      split at hs
      · next heq => exact (List.cons.inj heq).1
      · next heq => exact (List.cons.inj heq).1
      · cases hs
    obtain ⟨tail, htail, t, rfl⟩ := h.2.1 hc
    obtain ⟨value', hvalue, hread⟩ := hentities tail htail
    rw [hc, hread] at hs
    obtain ⟨rfl, -⟩ := Prod.mk.inj (Option.some.inj hs)
    exact hvalue

theorem backslash_not_mem_resolveFrom (skip : Nat) (h : Tame s) : '\\' ∉ resolveFrom skip s := by
  fun_induction resolveFrom skip s with
  | case1 => exact List.not_mem_nil
  | case2 skip c s ih => exact ih h.tail
  | case3 => exact nomatch h.1 rfl
  | case4 c s hpunctuation ih =>
    obtain rfl : c = '$' := Option.some.inj (h.1 rfl)
    rw [List.mem_cons, not_or]
    exact ⟨by decide, ih h.tail.tail⟩
  | case5 c s hpunctuation ih =>
    obtain rfl : c = '$' := Option.some.inj (h.1 rfl)
    exact absurd (by decide) hpunctuation
  | case6 c s hlone hescape value rest hread ih =>
    rw [List.mem_append, not_or]
    exact ⟨h.backslash_not_mem_of_atStart? hread, ih h.tail⟩
  | case7 c s hlone hescape hread ih =>
    rw [List.mem_cons, not_or]
    refine ⟨?_, ih h.tail⟩
    rintro rfl
    cases s with
    | nil => exact hlone rfl rfl
    | cons d s => exact hescape d s rfl rfl

/-- Resolving a tame text leaves no backslash. -/
theorem resolve (h : Tame s) : '\\' ∉ resolve s := h.backslash_not_mem_resolveFrom 0

end Tame

end Galley.Markdown
