import Galley.Text.Blank
import Mathlib.Data.List.Induction
import Mathlib.Data.List.Nodup

/-!
# Facts on texts

What the searches of a text find, what replacing a character changes, what trimming cuts off, how
often a character occurs in a rewritten text, and what the decimal digits of a number are.
-/

namespace Galley.Text

/-! ## Searching -/

theorem hasPrefix_iff {p s : Text} : hasPrefix p s = true ↔ ∃ r, s = p ++ r := by
  rw [hasPrefix, Option.isSome_iff_exists]
  simp only [dropPrefix?_eq_some_iff]

theorem hasSuffix_iff {p s : Text} : hasSuffix p s = true ↔ ∃ r, s = r ++ p := by
  rw [hasSuffix, Option.isSome_iff_exists]
  simp only [dropSuffix?_eq_some_iff]

theorem hasInfix_iff {p s : Text} : hasInfix p s = true ↔ p <:+: s := by
  induction s with
  | nil => simp [hasInfix]
  | cons c s ih =>
    rw [hasInfix, Bool.or_eq_true, hasPrefix_iff, ih, List.infix_cons_iff]
    exact or_congr_left ⟨fun ⟨r, hr⟩ => ⟨r, hr.symm⟩, fun ⟨r, hr⟩ => ⟨r, hr.symm⟩⟩

theorem prefix_of_prefix_append_cons {w a b : Text} {c : Char} (hc : c ∉ w)
    (h : w <+: a ++ c :: b) : w <+: a := by
  rcases List.prefix_or_prefix_of_prefix h (List.prefix_append a _) with hshort | ⟨v, rfl⟩
  · exact hshort
  · rw [List.prefix_append_right_inj] at h
    cases v with
    | nil => simp
    | cons d v =>
      obtain ⟨rfl, -⟩ := List.cons_prefix_cons.1 h
      simp at hc

theorem isInfix_append_cons_iff {w a b : Text} {c : Char} (hc : c ∉ w) :
    w <:+: a ++ c :: b ↔ w <:+: a ∨ w <:+: b := by
  constructor
  · intro h
    induction a with
    | nil =>
      rcases List.infix_cons_iff.1 h with hprefix | hpart
      · exact .inl (prefix_of_prefix_append_cons (a := []) hc hprefix).isInfix
      · exact .inr hpart
    | cons d a ih =>
      rcases List.infix_cons_iff.1 h with hprefix | hpart
      · exact .inl (prefix_of_prefix_append_cons (a := d :: a) hc hprefix).isInfix
      · exact (ih hpart).imp_left List.infix_cons
  · rintro (h | h)
    · exact h.trans (List.prefix_append _ _).isInfix
    · exact h.trans ((List.suffix_cons c b).trans (List.suffix_append a _)).isInfix

theorem isInfix_of_isInfix_append_of_head {x : Char} {q u s : Text} (hu : x ∉ u)
    (h : x :: q <:+: u ++ s) : x :: q <:+: s := by
  induction u with
  | nil => exact h
  | cons c u ih =>
    rw [List.mem_cons, not_or] at hu
    rcases List.infix_cons_iff.1 h with hprefix | hinfix
    · exact absurd (List.cons_prefix_cons.1 hprefix).1 hu.1
    · exact ih hu.2 hinfix

theorem isInfix_append_cons_of_head {x : Char} {q a b : Text} (hq : x ∉ q)
    (h : x :: q <:+: a ++ x :: b) : x :: q <:+: a ∨ x :: q <:+: x :: b := by
  induction a with
  | nil => exact .inr h
  | cons d a ih =>
    rcases List.infix_cons_iff.1 h with hprefix | hinfix
    · obtain ⟨rfl, hrest⟩ := List.cons_prefix_cons.1 hprefix
      have hbefore := prefix_of_prefix_append_cons hq hrest
      exact .inl ((List.prefix_cons_inj x).2 hbefore).isInfix
    · exact (ih hinfix).imp_left List.infix_cons

theorem drop_of_cons_eq_append {c : Char} {s w rest : Text} (hw : w ≠ [])
    (h : c :: s = w ++ rest) : s.drop (w.length - 1) = rest := by
  obtain ⟨d, w, rfl⟩ := List.exists_cons_of_ne_nil hw
  obtain ⟨rfl, rfl⟩ := List.cons.inj h
  exact List.drop_left

theorem count_replaceFrom {p r : Text} {c : Char} (hp : p ≠ []) (h : r.count c = p.count c)
    (skip : Nat) (s : Text) : (replaceFrom p r skip s).count c = (s.drop skip).count c := by
  induction s generalizing skip with
  | nil => cases skip <;> rfl
  | cons d s ih =>
    cases skip with
    | succ skip => exact ih skip
    | zero =>
      rw [replaceFrom]
      split
      · next hprefix =>
        obtain ⟨rest, hrest⟩ := hasPrefix_iff.1 hprefix
        rw [List.count_append, ih, drop_of_cons_eq_append hp hrest, h, List.drop_zero, hrest,
          List.count_append]
      · rw [List.count_cons, ih, List.drop_zero, List.drop_zero, List.count_cons]

theorem count_replace {p r : Text} {c : Char} (hp : p ≠ []) (h : r.count c = p.count c)
    (s : Text) : (replace p r s).count c = s.count c := count_replaceFrom hp h 0 s

theorem mem_of_mem_replace {p r s : Text} {c : Char} (h : c ∈ replace p r s) : c ∈ r ∨ c ∈ s := by
  unfold replace at h
  generalize 0 = skip at h
  induction s generalizing skip with
  | nil => exact .inr (by cases skip <;> exact h)
  | cons d s ih =>
    have hlater {skip : Nat} (hmem : c ∈ replaceFrom p r skip s) : c ∈ r ∨ c ∈ d :: s :=
      (ih skip hmem).imp_right (List.mem_cons_of_mem d)
    cases skip with
    | succ skip => exact hlater h
    | zero =>
      rw [replaceFrom] at h
      split at h
      · exact (List.mem_append.1 h).elim .inl hlater
      · rcases List.mem_cons.1 h with rfl | hmem
        · exact .inr List.mem_cons_self
        · exact hlater hmem

theorem mem_of_mem_splitOn {p s piece : Text} {c : Char} (hpiece : piece ∈ splitOn p s)
    (hc : c ∈ piece) : c ∈ s := by
  unfold splitOn at hpiece
  generalize 0 = skip at hpiece
  induction s generalizing skip piece with
  | nil =>
    obtain rfl : piece = [] := by cases skip <;> exact List.mem_singleton.1 hpiece
    exact hc
  | cons d s ih =>
    cases skip with
    | succ skip => exact List.mem_cons_of_mem d (ih hc skip hpiece)
    | zero =>
      rw [splitFrom] at hpiece
      split at hpiece
      · rcases List.mem_cons.1 hpiece with rfl | hmem
        · cases hc
        · exact List.mem_cons_of_mem d (ih hc _ hmem)
      · cases hpieces : splitFrom p 0 s with
        | nil =>
          rw [hpieces] at hpiece
          obtain rfl := List.mem_singleton.1 hpiece
          exact List.mem_cons.2 (.inl (List.mem_singleton.1 hc))
        | cons first pieces =>
          rw [hpieces, consHead] at hpiece
          rcases List.mem_cons.1 hpiece with rfl | hmem
          · rcases List.mem_cons.1 hc with rfl | hc
            · exact List.mem_cons_self
            · exact List.mem_cons_of_mem d (ih hc 0 (by rw [hpieces]; exact List.mem_cons_self))
          · exact List.mem_cons_of_mem d
              (ih hc 0 (by rw [hpieces]; exact List.mem_cons_of_mem first hmem))

/-! ## Replacing a character -/

theorem isInfix_of_isInfix_append {p u s : Text} (hp : p ≠ []) (hu : ∀ c ∈ u, c ∉ p)
    (h : p <:+: u ++ s) : p <:+: s := by
  obtain ⟨x, q, rfl⟩ := List.exists_cons_of_ne_nil hp
  exact isInfix_of_isInfix_append_of_head (fun hx => hu x hx List.mem_cons_self) h

theorem replace_singleton (c : Char) (r s : Text) :
    replace [c] r s = s.flatMap fun d => if d = c then r else [d] := by
  unfold replace
  induction s with
  | nil => rfl
  | cons d s ih =>
    have hprefix : hasPrefix [c] (d :: s) = decide (d = c) := by
      rw [Bool.eq_iff_iff, hasPrefix_iff, decide_eq_true_iff]
      simp [eq_comm]
    rw [replaceFrom, hprefix, List.flatMap_cons, ← ih]
    by_cases hd : d = c <;> simp [hd]

section replace

variable {p r s : Text} {c : Char}

theorem replace_singleton_cons_self (s : Text) :
    replace [c] r (c :: s) = r ++ replace [c] r s := by
  rw [replace_singleton, List.flatMap_cons, if_pos rfl, ← replace_singleton]

theorem replace_singleton_cons_of_ne {d : Char} (hd : d ≠ c) (s : Text) :
    replace [c] r (d :: s) = d :: replace [c] r s := by
  rw [replace_singleton, List.flatMap_cons, if_neg hd, ← replace_singleton, List.singleton_append]

theorem replace_singleton_of_not_mem (h : c ∉ s) : replace [c] r s = s := by
  induction s with
  | nil => rfl
  | cons d s ih =>
    rw [List.mem_cons, not_or] at h
    rw [replace_singleton_cons_of_ne (Ne.symm h.1), ih h.2]

theorem replace_singleton_append (s t : Text) :
    replace [c] r (s ++ t) = replace [c] r s ++ replace [c] r t := by
  simp only [replace_singleton, List.flatMap_append]

theorem not_mem_replace_singleton (hc : c ∉ r) (s : Text) : c ∉ replace [c] r s := by
  rw [replace_singleton, List.mem_flatMap]
  rintro ⟨d, -, hmem⟩
  split at hmem
  · exact hc hmem
  · next hd => exact hd (List.mem_singleton.1 hmem).symm

theorem countP_replace_singleton {p : Char → Bool} (hc : p c = true) (hr : r.countP p = 0)
    (s : Text) : (replace [c] r s).countP p + s.count c = s.countP p := by
  induction s with
  | nil => rfl
  | cons d s ih =>
    by_cases hd : d = c
    · subst hd
      rw [replace_singleton_cons_self, List.countP_append, hr, List.count_cons_self,
        List.countP_cons_of_pos hc]
      omega
    · rw [replace_singleton_cons_of_ne hd, List.countP_cons, List.count_cons_of_ne hd,
        List.countP_cons]
      omega

theorem prefix_of_prefix_replace (hr : r ≠ []) (hrp : ∀ d ∈ r, d ∉ p)
    (h : p <+: replace [c] r s) : p <+: s := by
  induction s generalizing p with
  | nil => exact h
  | cons d s ih =>
    cases p with
    | nil => exact List.nil_prefix
    | cons e p =>
      by_cases hd : d = c
      · obtain ⟨x, r, rfl⟩ := List.exists_cons_of_ne_nil hr
        rw [hd, replace_singleton_cons_self, List.cons_append] at h
        obtain ⟨rfl, -⟩ := List.cons_prefix_cons.1 h
        exact absurd List.mem_cons_self (hrp e List.mem_cons_self)
      · rw [replace_singleton_cons_of_ne hd] at h
        obtain ⟨rfl, hrest⟩ := List.cons_prefix_cons.1 h
        have hrp' : ∀ d ∈ r, d ∉ p := fun d hd hmem => hrp d hd (List.mem_cons_of_mem e hmem)
        exact List.cons_prefix_cons.2 ⟨rfl, ih hrp' hrest⟩

/-- Replacing a character neither creates nor destroys a text that has neither this character nor
any that takes its place. -/
theorem hasInfix_replace_singleton (hp : p ≠ []) (hc : c ∉ p) (hr : r ≠ []) (hrp : ∀ d ∈ r, d ∉ p)
    (s : Text) : hasInfix p (replace [c] r s) = hasInfix p s := by
  rw [Bool.eq_iff_iff, hasInfix_iff, hasInfix_iff]
  constructor
  · intro h
    induction s with
    | nil => exact h
    | cons d s ih =>
      by_cases hd : d = c
      · rw [hd, replace_singleton_cons_self] at h
        exact List.infix_cons (ih (isInfix_of_isInfix_append hp hrp h))
      · have hsame := replace_singleton_cons_of_ne (r := r) hd s
        rcases List.infix_cons_iff.1 (hsame ▸ h) with hprefix | hinfix
        · exact (prefix_of_prefix_replace hr hrp (hsame ▸ hprefix)).isInfix
        · exact List.infix_cons (ih hinfix)
  · rintro ⟨a, b, rfl⟩
    rw [replace_singleton_append, replace_singleton_append, replace_singleton_of_not_mem hc]
    exact ⟨_, _, rfl⟩

end replace

/-! ## Trimming -/

theorem exists_append_dropEndWhile (p : Char → Bool) (s : Text) :
    ∃ b, b.all p = true ∧ s = dropEndWhile p s ++ b := by
  refine ⟨(s.reverse.takeWhile p).reverse, ?_, ?_⟩
  · rw [List.all_reverse]
    exact List.all_takeWhile
  · rw [dropEndWhile, ← List.reverse_append, List.takeWhile_append_dropWhile, List.reverse_reverse]

theorem mem_of_mem_dropEndWhile {c : Char} {p : Char → Bool} {s : Text}
    (h : c ∈ dropEndWhile p s) : c ∈ s := by
  obtain ⟨b, -, hs⟩ := exists_append_dropEndWhile p s
  rw [hs]
  exact List.mem_append_left b h

theorem mem_of_mem_trimStart {c : Char} {s : Text} (h : c ∈ trimStart s) : c ∈ s :=
  (List.dropWhile_sublist _).mem h

theorem mem_of_mem_trim {c : Char} {s : Text} (h : c ∈ trim s) : c ∈ s :=
  mem_of_mem_trimStart (mem_of_mem_dropEndWhile h)

theorem not_mem_takeWhile {c : Char} {p : Char → Bool} (hc : p c = false) (s : Text) :
    c ∉ s.takeWhile p := by
  intro hmem
  rw [List.all_eq_true.1 (List.all_takeWhile (p := p)) c hmem] at hc
  cases hc

theorem mem_of_firstWord? {s word : Text} {c : Char} (h : firstWord? s = some word)
    (hc : c ∈ word) : c ∈ s := by
  unfold firstWord? at h
  split at h
  · cases h
  · obtain rfl := Option.some.inj h
    exact mem_of_mem_trimStart ((List.takeWhile_sublist _).mem hc)

theorem trim_isInfix (s : Text) : trim s <:+: s := by
  obtain ⟨b, -, hs⟩ := exists_append_dropEndWhile isBlank (trimStart s)
  have hprefix : trim s <+: trimStart s := ⟨b, hs.symm⟩
  exact hprefix.isInfix.trans (List.dropWhile_suffix _).isInfix

theorem dropEndWhile_append_of_all {p : Char → Bool} (s : Text) {b : Text} (hb : b.all p = true) :
    dropEndWhile p (s ++ b) = dropEndWhile p s := by
  have hrev : ∀ c ∈ b.reverse, p c = true := by simpa using hb
  rw [dropEndWhile, List.reverse_append, List.dropWhile_append_of_pos hrev]
  rfl

theorem dropEndWhile_append_singleton {p : Char → Bool} (s : Text) {c : Char} (hc : p c = false) :
    dropEndWhile p (s ++ [c]) = s ++ [c] := by
  simp [dropEndWhile, hc]

/-- A text that begins and ends with other characters is what trimming leaves of it among
blanks. -/
theorem trim_between {before after : Text} {first last : Char} (s : Text)
    (hbefore : before.all isBlank = true) (hafter : after.all isBlank = true)
    (hfirst : isBlank first = false) (hlast : isBlank last = false) :
    trim (before ++ (first :: s ++ [last]) ++ after) = first :: s ++ [last] := by
  have hstart : trimStart (before ++ (first :: s ++ [last]) ++ after) =
      first :: s ++ [last] ++ after := by
    rw [List.append_assoc, trimStart, List.dropWhile_append_of_pos (by simpa using hbefore)]
    simp [hfirst]
  rw [trim, hstart, trimEnd, dropEndWhile_append_of_all _ hafter,
    dropEndWhile_append_singleton (first :: s) hlast]

theorem trim_append {u v s t : Text} {first last : Char} (hu : u = first :: s) (hv : v = t ++ [last])
    (hfirst : isBlank first = false) (hlast : isBlank last = false) : trim (u ++ v) = u ++ v := by
  have hbetween : trim ([] ++ (first :: (s ++ t) ++ [last]) ++ []) = _ :=
    trim_between (s ++ t) rfl rfl hfirst hlast
  rw [List.nil_append, List.append_nil] at hbetween
  rw [hu, hv]
  simpa using hbetween

theorem trim_cons {c : Char} (s : Text) (hc : isBlank c = false) : ∃ t, trim (c :: s) = c :: t := by
  have hstart : trimStart (c :: s) = c :: s := by simp [trimStart, hc]
  obtain ⟨b, hb, hs⟩ := exists_append_dropEndWhile isBlank (c :: s)
  rw [trim, hstart, trimEnd]
  cases hend : dropEndWhile isBlank (c :: s) with
  | nil =>
    rw [hend, List.nil_append] at hs
    rw [← hs] at hb
    simp [hc] at hb
  | cons d t =>
    rw [hend] at hs
    obtain ⟨rfl, -⟩ := List.cons.inj hs
    exact ⟨t, rfl⟩

/-- A text that neither begins nor ends with a blank. -/
structure Trimmed (s : Text) : Prop where
  head : ∀ c ∈ s.head?, isBlank c = false
  last : ∀ c ∈ s.getLast?, isBlank c = false

instance (s : Text) : Decidable (Trimmed s) :=
  decidable_of_iff ((s.head?.all (!isBlank ·) && s.getLast?.all (!isBlank ·)) = true) <| by
    rw [Bool.and_eq_true, Option.all_eq_true, Option.all_eq_true]
    simp only [Bool.not_eq_true']
    exact ⟨fun h => ⟨h.1, h.2⟩, fun h => ⟨h.head, h.last⟩⟩

theorem head?_dropWhile {p : Char → Bool} {s : Text} {c : Char} (h : c ∈ (s.dropWhile p).head?) :
    p c = false := by
  have hhead := List.head?_dropWhile_not p s
  rw [Option.mem_def.1 h] at hhead
  exact hhead

theorem trimmed_trim (s : Text) : Trimmed (trim s) where
  head := by
    intro c hc
    obtain ⟨b, -, hs⟩ := exists_append_dropEndWhile isBlank (trimStart s)
    refine head?_dropWhile (s := s) ?_
    show c ∈ (trimStart s).head?
    have hkept : (dropEndWhile isBlank (trimStart s)).head? = some c := hc
    rw [hs, List.head?_append, hkept]
    rfl
  last := by
    intro c hc
    refine head?_dropWhile (s := (trimStart s).reverse) ?_
    rwa [trim, trimEnd, dropEndWhile, List.getLast?_reverse] at hc

theorem Trimmed.eq_nil_of_isBlank {s t : Text} (h : Trimmed s) (hsuffix : t <:+ s)
    (hblanks : ∀ c ∈ t, isBlank c = true) : t = [] := by
  rcases List.eq_nil_or_concat t with hnil | ⟨front, c, rfl⟩
  · exact hnil
  · rw [List.concat_eq_append] at hsuffix hblanks
    obtain ⟨start, rfl⟩ := hsuffix
    have hlast := h.last c (by simp)
    rw [hblanks c (by simp)] at hlast
    cases hlast

theorem Trimmed.trim_eq {s : Text} (h : Trimmed s) : trim s = s := by
  have hstart : trimStart s = s := by
    cases s with
    | nil => rfl
    | cons c s => simp [trimStart, h.head c rfl]
  rw [trim, hstart, trimEnd]
  rcases List.eq_nil_or_concat s with rfl | ⟨t, c, rfl⟩
  · rfl
  · rw [List.concat_eq_append] at h ⊢
    exact dropEndWhile_append_singleton t (h.last c (by simp))

theorem exists_append_trim (s : Text) :
    ∃ before after, before.all isBlank = true ∧ after.all isBlank = true ∧
      s = before ++ (trim s ++ after) := by
  obtain ⟨after, hafter, hs⟩ := exists_append_dropEndWhile isBlank (trimStart s)
  refine ⟨s.takeWhile isBlank, after, List.all_takeWhile, hafter, ?_⟩
  conv => lhs; rw [← List.takeWhile_append_dropWhile (p := isBlank) (l := s)]
  exact congrArg (s.takeWhile isBlank ++ ·) hs

theorem isEmpty_trim (s : Text) : (trim s).isEmpty = s.all isBlank := by
  rw [Bool.eq_iff_iff, List.isEmpty_iff]
  constructor
  · intro hnil
    obtain ⟨before, after, hbefore, hafter, hs⟩ := exists_append_trim s
    rw [hs, hnil, List.nil_append, List.all_append, hbefore, hafter]
    rfl
  · intro hall
    have hstart : (s ++ []).dropWhile isBlank = [] :=
      List.dropWhile_append_of_pos (List.all_eq_true.1 hall)
    rw [List.append_nil] at hstart
    rw [trim, trimStart, hstart]
    rfl

theorem countP_trim (s : Text) :
    (trim s).countP isBlank ≤ s.countP isBlank ∧
    ((trim s).countP isBlank = s.countP isBlank → trim s = s) := by
  obtain ⟨before, after, hbefore, hafter, hs⟩ := exists_append_trim s
  have hlength {b : Text} (hb : b.all isBlank = true) : b.countP isBlank = b.length :=
    List.countP_eq_length.2 (List.all_eq_true.1 hb)
  have hcount := congrArg (List.countP isBlank) hs
  rw [List.countP_append, List.countP_append, hlength hbefore, hlength hafter] at hcount
  refine ⟨by omega, fun heq => ?_⟩
  obtain rfl : before = [] := List.eq_nil_of_length_eq_zero (by omega)
  obtain rfl : after = [] := List.eq_nil_of_length_eq_zero (by omega)
  rw [List.nil_append, List.append_nil] at hs
  exact hs.symm

theorem isInfix_trimStart {s t : Text} (h : s <:+: t) : trimStart s <:+: trimStart t := by
  obtain ⟨before, after, rfl⟩ := h
  have hbefore : trimStart (s ++ after) <:+ trimStart (before ++ (s ++ after)) := by
    have hsplit : (before ++ (s ++ after)).dropWhile isBlank = _ := List.dropWhile_append
    unfold trimStart
    rw [hsplit]
    split
    · exact List.suffix_rfl
    · exact (List.dropWhile_suffix _).trans (List.suffix_append _ _)
  have hafter : trimStart s <+: trimStart (s ++ after) := by
    unfold trimStart
    rw [List.dropWhile_append]
    split
    · next hempty =>
      rw [List.isEmpty_iff.1 hempty]
      exact List.nil_prefix
    · exact List.prefix_append _ _
  rw [List.append_assoc]
  exact hafter.isInfix.trans hbefore.isInfix

theorem isInfix_trim {s t : Text} (h : s <:+: t) : trim s <:+: trim t := by
  have hreverse : (trimStart s).reverse <:+: (trimStart t).reverse :=
    List.reverse_infix.2 (isInfix_trimStart h)
  exact List.reverse_infix.2 (isInfix_trimStart hreverse)

theorem mem_of_mem_unquote {c : Char} {s : Text} (h : c ∈ unquote s) : c ∈ s := by
  have hinner : ∀ {quote : Char} {t : Text},
      (dropPrefix? [quote] s).bind (dropSuffix? [quote]) = some t → c ∈ t → c ∈ s := by
    intro quote t ht hc
    obtain ⟨rest, hrest, hsuffix⟩ := Option.bind_eq_some_iff.1 ht
    rw [dropPrefix?_eq_some_iff.1 hrest, dropSuffix?_eq_some_iff.1 hsuffix]
    exact List.mem_append_right _ (List.mem_append_left _ hc)
  unfold unquote at h
  simp only at h
  cases hsingle : (dropPrefix? ['\''] s).bind (dropSuffix? ['\'']) with
  | some t =>
    rw [hsingle] at h
    exact hinner hsingle h
  | none =>
    rw [hsingle, Option.none_or] at h
    cases hdouble : (dropPrefix? ['"'] s).bind (dropSuffix? ['"']) with
    | some t =>
      rw [hdouble] at h
      exact hinner hdouble h
    | none =>
      rw [hdouble] at h
      exact h

/-! ## Lines -/

theorem exists_of_mem_lines {s line : Text} (h : line ∈ lines s) :
    ∃ t, '\n' ∉ t ∧ (line = t ∨ line = t ++ ['\n']) := by
  induction s generalizing line with
  | nil => cases h
  | cons c s ih =>
    rw [lines] at h
    split at h
    · next hc =>
      rcases List.mem_cons.1 h with rfl | hmem
      · exact ⟨[], List.not_mem_nil, .inr (by rw [hc]; rfl)⟩
      · exact ih hmem
    · next hc =>
      cases hlines : lines s with
      | nil =>
        rw [hlines] at h
        obtain rfl := List.mem_singleton.1 h
        exact ⟨[c], by simpa using Ne.symm hc, .inl rfl⟩
      | cons first rest =>
        rw [hlines] at h ih
        rcases List.mem_cons.1 h with rfl | hmem
        · obtain ⟨t, ht, hline⟩ := ih List.mem_cons_self
          have hct : '\n' ∉ c :: t := by simpa [ht] using Ne.symm hc
          rcases hline with rfl | rfl
          · exact ⟨c :: first, hct, .inl rfl⟩
          · exact ⟨c :: t, hct, .inr rfl⟩
        · exact ih (List.mem_cons_of_mem first hmem)

theorem lines_append_newline {s : Text} (h : '\n' ∉ s) (t : Text) :
    lines (s ++ '\n' :: t) = (s ++ ['\n']) :: lines t := by
  induction s with
  | nil => rfl
  | cons c s ih =>
    rw [List.mem_cons, not_or] at h
    rw [List.cons_append, lines, if_neg (Ne.symm h.1), ih h.2]
    rfl

theorem lines_append_cons_newline (s t : Text) :
    lines (s ++ '\n' :: t) = lines (s ++ ['\n']) ++ lines t := by
  induction s with
  | nil => rfl
  | cons c s ih =>
    rw [List.cons_append, List.cons_append, lines, lines, ih]
    split
    · rfl
    · cases hlines : lines (s ++ ['\n']) with
      | nil =>
        have hflatten := flatten_lines (s ++ ['\n'])
        simp [hlines] at hflatten
      | cons line lines => rfl

theorem lines_of_not_mem {s : Text} (h : '\n' ∉ s) (hs : s ≠ []) : lines s = [s] := by
  induction s with
  | nil => exact absurd rfl hs
  | cons c s ih =>
    rw [List.mem_cons, not_or] at h
    rw [lines, if_neg (Ne.symm h.1)]
    cases s with
    | nil => rfl
    | cons d s => simp [ih h.2, consHead]

/-- A text is empty, or a last line, or a line and the text behind it. -/
@[elab_as_elim]
theorem lineInduction {P : Text → Prop} (s : Text) (nil : P [])
    (last : ∀ t, '\n' ∉ t → t ≠ [] → P t)
    (line : ∀ t rest, '\n' ∉ t → P rest → P (t ++ '\n' :: rest)) : P s := by
  suffices h : ∀ t, '\n' ∉ t → P (t ++ s) from h [] List.not_mem_nil
  induction s with
  | nil =>
    intro t ht
    rw [List.append_nil]
    by_cases hempty : t = []
    · rw [hempty]
      exact nil
    · exact last t ht hempty
  | cons c s ih =>
    intro t ht
    by_cases hc : c = '\n'
    · rw [hc]
      exact line t s ht (ih [] List.not_mem_nil)
    · have hnext := ih (t ++ [c]) (by simp [ht, Ne.symm hc])
      rwa [List.append_assoc, List.singleton_append] at hnext

theorem exists_last_newline (s : Text) : '\n' ∉ s ∨ ∃ a b, '\n' ∉ b ∧ s = a ++ '\n' :: b := by
  induction s with
  | nil => simp
  | cons c s ih =>
    rcases ih with hnone | ⟨a, b, hb, rfl⟩
    · by_cases hc : c = '\n'
      · exact .inr ⟨[], s, hnone, by simp [hc]⟩
      · exact .inl (by simp [hnone, Ne.symm hc])
    · exact .inr ⟨c :: a, b, hb, rfl⟩

theorem eq_of_append_cons_eq {x : Char} {a b s t : Text} (hs : x ∉ s) (ht : x ∉ t)
    (h : a ++ x :: s = b ++ x :: t) : a = b ∧ s = t := by
  rcases List.append_eq_append_iff.1 h with ⟨c, rfl, hc⟩ | ⟨c, rfl, hc⟩
  · cases c with
    | nil => exact ⟨(List.append_nil a).symm, (List.cons.inj hc).2⟩
    | cons d c =>
      obtain ⟨-, rfl⟩ := List.cons.inj hc
      exact absurd (List.mem_append_right c List.mem_cons_self) hs
  · cases c with
    | nil => exact ⟨List.append_nil b, (List.cons.inj hc).2.symm⟩
    | cons d c =>
      obtain ⟨-, rfl⟩ := List.cons.inj hc
      exact absurd (List.mem_append_right c List.mem_cons_self) ht

/-! ## Numbers -/

theorem all_isDigit_ofNat (n : Nat) : (ofNat n).all Char.isDigit = true := by
  rw [List.all_eq_true]
  intro c hc
  exact Nat.isDigit_of_mem_toDigits (by omega) (by omega) hc

theorem not_mem_ofNat {c : Char} (hc : c.isDigit = false) (n : Nat) : c ∉ ofNat n := by
  intro hmem
  rw [List.all_eq_true.1 (all_isDigit_ofNat n) c hmem] at hc
  cases hc

theorem ofNat_inj {m n : Nat} (h : ofNat m = ofNat n) : m = n := by
  have hvalue := congrArg (Nat.ofDigitChars 10 · 0) h
  simpa [ofNat] using hvalue

/-! ## Texts once each -/

theorem eraseDups_concat (ts : List Text) (t : Text) :
    (ts ++ [t]).eraseDups = if t ∈ ts then ts.eraseDups else ts.eraseDups ++ [t] := by
  have hone : [t].eraseDups = [t] := rfl
  rw [List.eraseDups_append]
  split
  · next h => simp [List.removeAll, h]
  · next h => simp [List.removeAll, h, hone]

theorem nodup_eraseDups (ts : List Text) : ts.eraseDups.Nodup := by
  induction ts using List.reverseRecOn with
  | nil => exact List.nodup_nil
  | append_singleton ts t ih =>
    rw [eraseDups_concat]
    split
    · exact ih
    · next h =>
      rw [← List.concat_eq_append]
      exact ih.concat fun hmem => h (List.mem_eraseDups.1 hmem)

end Galley.Text
