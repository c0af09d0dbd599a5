import Galley.Document.LinkTarget
import Galley.Proofs.Text

/-!
# Where the parts of a link end

A title runs to the last quote before a `)` on its line, a target to the first place where a title or
a `)` ends the link, and a text to the first `](` on its line. From these the link at the start of a
text is known part by part (`atStart?_eq_some_iff`), whatever stands behind it. It stands there as it is
written, and its target lies within a line (`exists_of_atStart?`).
-/

namespace Galley.Document.Link

open Text (isBlank)

/-! ## The current line -/

def lineRest (s : Text) : Text := s.takeWhile (· ≠ '\n')

def lineEnd (s : Text) : Text := s.dropWhile (· ≠ '\n')

def EndsLine (s : Text) : Prop := ∀ c ∈ s.head?, c = '\n'

variable {s r w z d body rest title target text : Text}

theorem lineRest_append_lineEnd (s : Text) : lineRest s ++ lineEnd s = s :=
  List.takeWhile_append_dropWhile

theorem newline_not_mem_lineRest (s : Text) : '\n' ∉ lineRest s :=
  Text.not_mem_takeWhile (by decide) s

theorem endsLine_lineEnd (s : Text) : EndsLine (lineEnd s) := by
  intro c hc
  simpa using Text.head?_dropWhile hc

theorem lineRest_append (hw : '\n' ∉ w) (hd : EndsLine d) : lineRest (w ++ d) = w := by
  have hline : ∀ c ∈ w, decide (c ≠ '\n') = true := by
    rintro c hc
    rw [decide_eq_true_eq]
    rintro rfl
    exact hw hc
  rw [lineRest, List.takeWhile_append_of_pos hline]
  cases d with
  | nil => simp
  | cons c d =>
    obtain rfl := hd c rfl
    simp

theorem exists_of_append_eq_append (hd : EndsLine d) (hw : '\n' ∉ w) (h : z ++ d = w ++ r) :
    ∃ z', z = w ++ z' ∧ r = z' ++ d := by
  rcases List.append_eq_append_iff.1 h with ⟨more, rfl, hmore⟩ | ⟨more, hz, hr⟩
  · cases more with
    | nil => exact ⟨[], by simp, hmore.symm⟩
    | cons c more =>
      obtain rfl := hd c (by simp [hmore])
      exact absurd (List.mem_append_right z List.mem_cons_self) hw
  · exact ⟨more, hz, hr⟩

/-! ## Titles -/

theorem throughQuote?_cons {c : Char} (hc : c ≠ '\n') (s : Text) :
    throughQuote? (c :: s) =
      ((throughQuote? s).map fun (body, rest) => (c :: body, rest)).or
        ((Text.dropPrefix? ['"', ')'] (c :: s)).map fun rest => (['"'], rest)) := by
  conv => lhs; unfold throughQuote?
  rw [if_neg hc]
  cases throughQuote? s with
  | some found => rfl
  | none =>
    by_cases hquote : c = '"'
    · subst hquote
      cases s with
      | nil => rfl
      | cons d s =>
        by_cases hclose : d = ')'
        · subst hclose
          rfl
        · simp [Text.dropPrefix?, hclose, Ne.symm hclose]
    · simp [Text.dropPrefix?, hquote, Ne.symm hquote]

theorem throughQuote?_newline (s : Text) : throughQuote? ('\n' :: s) = none := rfl

theorem throughQuote?_append (hw : '\n' ∉ w) (h : throughQuote? r = some (body, rest)) :
    throughQuote? (w ++ r) = some (w ++ body, rest) := by
  induction w with
  | nil => exact h
  | cons c w ih =>
    rw [List.mem_cons, not_or] at hw
    rw [List.cons_append, throughQuote?_cons (Ne.symm hw.1), ih hw.2]
    rfl

theorem throughQuote?_eq_none_of_append (hw : '\n' ∉ w) (h : throughQuote? (w ++ r) = none) :
    throughQuote? r = none := by
  rw [Option.eq_none_iff_forall_ne_some] at h ⊢
  intro found hfound
  exact h _ (throughQuote?_append hw hfound)

/-- A quote before a `)` ends a title, unless another one follows on the line. -/
theorem throughQuote?_quoted (hw : '\n' ∉ w) (r : Text) :
    throughQuote? (w ++ '"' :: ')' :: r) =
      ((throughQuote? r).map fun (body, rest) => (w ++ '"' :: ')' :: body, rest)).or
        (some (w ++ ['"'], r)) := by
  have hhere : throughQuote? ('"' :: ')' :: r) =
      ((throughQuote? r).map fun (body, rest) => ('"' :: ')' :: body, rest)).or (some (['"'], r)) := by
    rw [throughQuote?_cons (by decide), throughQuote?_cons (by decide)]
    cases throughQuote? r <;> rfl
  cases hr : throughQuote? r with
  | none => exact throughQuote?_append hw (hhere.trans (by rw [hr]; rfl))
  | some found => exact throughQuote?_append hw (hhere.trans (by rw [hr]; rfl))

theorem exists_of_throughQuote? (h : throughQuote? s = some (body, rest)) :
    throughQuote? rest = none ∧
      ∃ b, '\n' ∉ b ∧ body = b ++ ['"'] ∧ s = b ++ '"' :: ')' :: rest := by
  induction s generalizing body with
  | nil => cases h
  | cons c s ih =>
    by_cases hc : c = '\n'
    · rw [hc, throughQuote?_newline] at h
      cases h
    · rw [throughQuote?_cons hc] at h
      cases hs : throughQuote? s with
      | some found =>
        rw [hs] at h
        obtain ⟨rfl, rfl⟩ := Prod.mk.inj (Option.some.inj h)
        obtain ⟨hrest, b, hb, hbody, rfl⟩ := ih hs
        refine ⟨hrest, c :: b, ?_, by rw [hbody]; rfl, rfl⟩
        simpa [hb] using Ne.symm hc
      | none =>
        rw [hs] at h
        obtain ⟨after, hafter, heq⟩ := Option.map_eq_some_iff.1 h
        obtain ⟨rfl, rfl⟩ := Prod.mk.inj heq
        obtain ⟨rfl, rfl⟩ := List.cons.inj (Text.dropPrefix?_eq_some_iff.1 hafter)
        exact ⟨throughQuote?_eq_none_of_append (w := [')']) (by decide) hs, [], by simp, rfl, rfl⟩

theorem eq_of_throughQuote? (h : throughQuote? s = some (body, rest)) : s = body ++ ')' :: rest := by
  obtain ⟨-, b, -, rfl, rfl⟩ := exists_of_throughQuote? h
  simp

theorem throughQuote?_eq_none_iff : throughQuote? s = none ↔ ¬ ['"', ')'] <:+: lineRest s := by
  induction s with
  | nil => decide
  | cons c s ih =>
    by_cases hc : c = '\n'
    · subst hc
      exact iff_of_true rfl (by simp [lineRest])
    · have hline : lineRest (c :: s) = c :: lineRest s := by simp [lineRest, hc]
      have hprefix : Text.dropPrefix? ['"', ')'] (c :: s) = none ↔
          ¬ ['"', ')'] <+: c :: lineRest s := by
        cases s with
        | nil => simp [Text.dropPrefix?, lineRest]
        | cons e s =>
          by_cases he : e = ')'
          · subst he
            simp [Text.dropPrefix?, lineRest, List.cons_prefix_cons]
          · by_cases hnewline : e = '\n' <;>
              simp [Text.dropPrefix?, lineRest, List.cons_prefix_cons, Ne.symm he, hnewline]
      rw [throughQuote?_cons hc, Option.or_eq_none_iff, Option.map_eq_none_iff,
        Option.map_eq_none_iff, ih, hprefix, hline, List.infix_cons_iff, not_or, and_comm]

theorem not_isInfix_of_throughQuote? (hw : '\n' ∉ w) (h : throughQuote? (w ++ s) = none) :
    ¬ ['"', ')'] <:+: w := by
  rintro ⟨before, after, rfl⟩
  have hbefore : '\n' ∉ before := fun hmem => hw (by simp [hmem])
  have hsplit : before ++ ['"', ')'] ++ after ++ s = before ++ '"' :: ')' :: (after ++ s) := by simp
  rw [hsplit, throughQuote?_quoted hbefore, Option.or_eq_none_iff] at h
  cases h.2

theorem rest_of_throughQuote? (hz : ¬ ['"', ')'] <:+: z)
    (h : throughQuote? (z ++ ')' :: r) = some (body, rest)) :
    rest = r ∨ ∃ b, throughQuote? r = some (b, rest) := by
  induction z generalizing body with
  | nil =>
    rw [List.nil_append, throughQuote?_cons (by decide)] at h
    cases hr : throughQuote? r with
    | none =>
      rw [hr] at h
      cases h
    | some found =>
      rw [hr] at h
      obtain ⟨-, rfl⟩ := Prod.mk.inj (Option.some.inj h)
      exact .inr ⟨_, rfl⟩
  | cons c z ih =>
    rw [List.infix_cons_iff, not_or] at hz
    by_cases hc : c = '\n'
    · rw [List.cons_append, hc, throughQuote?_newline] at h
      cases h
    · rw [List.cons_append, throughQuote?_cons hc] at h
      cases hmore : throughQuote? (z ++ ')' :: r) with
      | some found =>
        rw [hmore] at h
        obtain ⟨-, rfl⟩ := Prod.mk.inj (Option.some.inj h)
        exact ih hz.2 hmore
      | none =>
        rw [hmore] at h
        obtain ⟨after, hafter, heq⟩ := Option.map_eq_some_iff.1 h
        obtain ⟨-, rfl⟩ := Prod.mk.inj heq
        obtain ⟨rfl, htail⟩ := List.cons.inj (Text.dropPrefix?_eq_some_iff.1 hafter)
        cases z with
        | nil => exact .inl (List.cons.inj htail).2.symm
        | cons e z =>
          obtain ⟨rfl, -⟩ := List.cons.inj htail
          exact absurd (List.cons_prefix_cons.2 ⟨rfl, by simp⟩) hz.1

theorem title?_blanks {blanks : Text} (hne : blanks ≠ []) (hblanks : ∀ c ∈ blanks, isBlank c = true)
    (q : Text) :
    title? (blanks ++ '"' :: q) =
      (throughQuote? q).map fun (body, rest) => (blanks ++ '"' :: body, rest) := by
  have htake : (blanks ++ '"' :: q).takeWhile isBlank = blanks := by
    rw [List.takeWhile_append_of_pos hblanks]
    exact List.append_nil blanks
  have hdrop : (blanks ++ '"' :: q).dropWhile isBlank = '"' :: q := by
    rw [List.dropWhile_append_of_pos hblanks]
    rfl
  unfold title?
  rw [htake, hdrop]
  cases blanks with
  | nil => exact absurd rfl hne
  | cons c blanks => rfl

theorem exists_of_title? (h : title? s = some (title, rest)) :
    ∃ blanks q body, blanks ≠ [] ∧ (∀ c ∈ blanks, isBlank c = true) ∧ s = blanks ++ '"' :: q ∧
      throughQuote? q = some (body, rest) ∧ title = blanks ++ '"' :: body := by
  have hsplit := List.takeWhile_append_dropWhile (p := isBlank) (l := s)
  have hblanks := List.all_eq_true.1 (List.all_takeWhile (p := isBlank) (l := s))
  unfold title? at h
  split at h
  · cases h
  · next q hdrop hne =>
    obtain ⟨⟨body, after⟩, hthrough, heq⟩ := Option.map_eq_some_iff.1 h
    obtain ⟨rfl, rfl⟩ := Prod.mk.inj heq
    rw [hdrop] at hsplit
    exact ⟨_, q, body, hne, hblanks, hsplit.symm, hthrough, rfl⟩
  · cases h

theorem not_mem_blanks {c : Char} {blanks : Text} (hc : isBlank c = false)
    (hblanks : ∀ c ∈ blanks, isBlank c = true) : c ∉ blanks := by
  intro hmem
  rw [hblanks c hmem] at hc
  cases hc

/-- A title begins with the last blanks before a quote, also one that begins in another text. -/
theorem title?_append_cases (h : title? (w ++ z) = some (title, rest)) :
    ∃ blanks q body, blanks ≠ [] ∧ (∀ c ∈ blanks, isBlank c = true) ∧
      throughQuote? q = some (body, rest) ∧ title = blanks ++ '"' :: body ∧
      ((∃ q', w = blanks ++ '"' :: q' ∧ q = q' ++ z) ∨
        ∃ more, blanks = w ++ more ∧ z = more ++ '"' :: q) := by
  obtain ⟨blanks, q, body, hne, hblanks, hsplit, hthrough, htitle⟩ := exists_of_title? h
  refine ⟨blanks, q, body, hne, hblanks, hthrough, htitle, ?_⟩
  rcases List.append_eq_append_iff.1 hsplit with ⟨more, hmore, hz⟩ | ⟨more, hmore, hquote⟩
  · exact .inr ⟨more, hmore, hz⟩
  · cases more with
    | nil => exact .inr ⟨[], by rw [hmore, List.append_nil, List.append_nil], hquote.symm⟩
    | cons c more =>
      obtain ⟨rfl, hq⟩ := List.cons.inj hquote
      exact .inl ⟨more, hmore, hq⟩

/-- Blanks and a text in quotes, on a line. -/
def IsTitle (title : Text) : Prop :=
  ∃ blanks inner, blanks ≠ [] ∧ (∀ c ∈ blanks, isBlank c = true) ∧ '\n' ∉ inner ∧
    title = blanks ++ '"' :: (inner ++ ['"'])

theorem title?_of_isTitle (h : IsTitle title) (r : Text) :
    title? (title ++ ')' :: r) =
      ((throughQuote? r).map fun (body, rest) => (title ++ ')' :: body, rest)).or (some (title, r)) := by
  obtain ⟨blanks, inner, hne, hblanks, hinner, rfl⟩ := h
  have hread := title?_blanks hne hblanks (inner ++ '"' :: ')' :: r)
  have hsplit : blanks ++ '"' :: (inner ++ ['"']) ++ ')' :: r =
      blanks ++ '"' :: (inner ++ '"' :: ')' :: r) := by simp
  rw [hsplit, hread, throughQuote?_quoted hinner]
  cases throughQuote? r with
  | none => rfl
  | some found => simp

/-! ## Targets -/

/-- The title of a link whose target has ended, and what follows the link. -/
def ending? (s : Text) : Option (Text × Text) :=
  (title? s).or ((Text.dropPrefix? [')'] s).map fun rest => ([], rest))

theorem ending?_eq_some_iff :
    ending? s = some (title, rest) ↔
      title? s = some (title, rest) ∨ title = [] ∧ s = ')' :: rest := by
  unfold ending?
  cases htitle : title? s with
  | some found =>
    have hparen : s ≠ ')' :: rest := by
      rintro rfl
      cases htitle
    simp [hparen]
  | none =>
    rw [Option.none_or, Option.map_eq_some_iff]
    simp only [Text.dropPrefix?_eq_some_iff, Prod.mk.injEq, reduceCtorEq, false_or]
    exact ⟨fun ⟨after, hs, htitle, hafter⟩ => ⟨htitle.symm, hafter ▸ hs⟩,
      fun ⟨htitle, hs⟩ => ⟨rest, hs, htitle.symm, rfl⟩⟩

theorem eq_of_ending? (h : ending? s = some (title, rest)) : s = title ++ ')' :: rest := by
  rcases ending?_eq_some_iff.1 h with htitle | ⟨rfl, rfl⟩
  · obtain ⟨blanks, q, body, -, -, rfl, hthrough, rfl⟩ := exists_of_title? htitle
    rw [eq_of_throughQuote? hthrough]
    simp
  · rfl

theorem title_cases (h : ending? (title ++ ')' :: rest) = some (title, rest)) :
    title = [] ∨ IsTitle title ∧ throughQuote? rest = none := by
  rcases ending?_eq_some_iff.1 h with htitle | ⟨htitle, -⟩
  · obtain ⟨blanks, q, body, hne, hblanks, -, hthrough, rfl⟩ := exists_of_title? htitle
    obtain ⟨hrest, inner, hinner, rfl, -⟩ := exists_of_throughQuote? hthrough
    exact .inr ⟨⟨blanks, inner, hne, hblanks, hinner, rfl⟩, hrest⟩
  · exact .inl htitle

theorem target?_cons (c : Char) (s : Text) :
    target? (c :: s) =
      ((ending? (c :: s)).map fun (title, rest) => ([], title, rest)).or
        (if c = '\n' then none else (target? s).map fun (target, rest) => (c :: target, rest)) := by
  conv => lhs; unfold target?
  unfold ending?
  cases title? (c :: s) with
  | some found => rfl
  | none =>
    by_cases hclose : c = ')'
    · subst hclose
      rfl
    · simp [Text.dropPrefix?, hclose, Ne.symm hclose]

/-- A target ends at the first place of its line where the link can end. -/
theorem target?_eq_some_iff :
    target? s = some (target, title, rest) ↔
      ∃ z, s = target ++ z ∧ '\n' ∉ target ∧ ending? z = some (title, rest) ∧
        ∀ b, b ≠ [] → b <:+ target → ending? (b ++ z) = none := by
  induction s generalizing target with
  | nil =>
    refine iff_of_false (by simp [target?]) ?_
    rintro ⟨z, hz, -, hending, -⟩
    obtain ⟨-, rfl⟩ := List.append_eq_nil_iff.1 hz.symm
    cases hending
  | cons c s ih =>
    rw [target?_cons]
    cases hhere : ending? (c :: s) with
    | some found =>
      constructor
      · intro h
        obtain ⟨rfl, heq⟩ := Prod.mk.inj (Option.some.inj h)
        obtain ⟨rfl, rfl⟩ := Prod.mk.inj heq
        refine ⟨c :: s, rfl, by simp, hhere, fun b hb hsuffix => ?_⟩
        exact absurd (List.suffix_nil.1 hsuffix) hb
      · rintro ⟨z, hz, -, hending, hfirst⟩
        cases target with
        | nil =>
          obtain rfl : c :: s = z := hz
          obtain rfl := Option.some.inj (hhere.symm.trans hending)
          rfl
        | cons e target =>
          have hnone := hfirst (e :: target) (by simp) List.suffix_rfl
          rw [← hz, hhere] at hnone
          cases hnone
    | none =>
      rw [Option.map_none, Option.none_or]
      constructor
      · intro h
        split at h
        · cases h
        · next hc =>
          obtain ⟨⟨tail, after⟩, htail, heq⟩ := Option.map_eq_some_iff.1 h
          obtain ⟨rfl, rfl⟩ := Prod.mk.inj heq
          obtain ⟨z, rfl, hnewline, hending, hfirst⟩ := ih.1 htail
          refine ⟨z, rfl, by simpa [hnewline] using Ne.symm hc, hending, fun b hb hsuffix => ?_⟩
          rcases List.suffix_cons_iff.1 hsuffix with rfl | hsuffix
          · exact hhere
          · exact hfirst b hb hsuffix
      · rintro ⟨z, hz, hnewline, hending, hfirst⟩
        cases target with
        | nil =>
          obtain rfl : c :: s = z := hz
          rw [hhere] at hending
          cases hending
        | cons e target =>
          obtain ⟨rfl, hs⟩ := List.cons.inj hz
          obtain rfl : s = target ++ z := hs
          rw [List.mem_cons, not_or] at hnewline
          have htail : target? (target ++ z) = some (target, title, rest) :=
            ih.2 ⟨z, rfl, hnewline.2, hending,
              fun b hb hsuffix => hfirst b hb (hsuffix.trans (List.suffix_cons c target))⟩
          rw [if_neg (Ne.symm hnewline.1), htail]
          rfl

theorem eq_of_target? (h : target? s = some (target, title, rest)) :
    s = target ++ title ++ ')' :: rest ∧ '\n' ∉ target := by
  obtain ⟨z, rfl, hline, hending, -⟩ := target?_eq_some_iff.1 h
  rw [eq_of_ending? hending, List.append_assoc]
  exact ⟨rfl, hline⟩

theorem target?_append_iff :
    target? (target ++ z) = some (target, title, rest) ↔
      '\n' ∉ target ∧ ending? z = some (title, rest) ∧
        ∀ b, b ≠ [] → b <:+ target → ending? (b ++ z) = none := by
  rw [target?_eq_some_iff]
  constructor
  · rintro ⟨z', hz, hread⟩
    obtain rfl := List.append_cancel_left hz
    exact hread
  · exact fun hread => ⟨z, rfl, hread⟩

theorem isSome_target?_of_ending? (h : (ending? z).isSome) : (target? z).isSome := by
  cases z with
  | nil => cases h
  | cons c z =>
    obtain ⟨found, hfound⟩ := Option.isSome_iff_exists.1 h
    rw [target?_cons, hfound]
    rfl

theorem isSome_target?_append (hw : '\n' ∉ w) (h : (target? r).isSome) :
    (target? (w ++ r)).isSome := by
  induction w with
  | nil => exact h
  | cons c w ih =>
    rw [List.mem_cons, not_or] at hw
    rw [List.cons_append, target?_cons, if_neg (Ne.symm hw.1), Option.isSome_or, Option.isSome_map,
      Option.isSome_map, ih hw.2, Bool.or_true]

/-- Where a link can end behind `w`, its target ends with `w` or before. -/
theorem exists_of_target?_append (hend : (ending? z).isSome)
    (h : target? (w ++ z) = some (target, title, rest)) :
    ∃ cut, w = target ++ cut ∧ ending? (cut ++ z) = some (title, rest) ∧
      ∀ b, b ≠ [] → b <:+ target → ending? (b ++ (cut ++ z)) = none := by
  obtain ⟨z', hz, -, hend', hfirst⟩ := target?_eq_some_iff.1 h
  rcases List.append_eq_append_iff.1 hz with ⟨more, rfl, rfl⟩ | ⟨cut, rfl, rfl⟩
  · cases more with
    | nil => exact ⟨[], by simp, hend', by simpa using hfirst⟩
    | cons c more =>
      rw [hfirst (c :: more) (by simp) (List.suffix_append _ _)] at hend
      cases hend
  · exact ⟨cut, rfl, hend', hfirst⟩

/-! ## Texts -/

/-- The text of a link, and what follows the `](` behind it. -/
def text? : Text → Option (Text × Text)
  | [] => none
  | c :: s =>
    match Text.dropPrefix? [']', '('] (c :: s) with
    | some rest => some ([], rest)
    | none => if c = '\n' then none else (text? s).map fun (text, rest) => (c :: text, rest)

theorem text?_eq_some_iff :
    text? s = some (text, rest) ↔
      s = text ++ ']' :: '(' :: rest ∧ '\n' ∉ text ∧ ¬ [']', '('] <:+: text := by
  induction s generalizing text with
  | nil => simp [text?]
  | cons c s ih =>
    rw [text?]
    cases hhere : Text.dropPrefix? [']', '('] (c :: s) with
    | some after =>
      have hs := Text.dropPrefix?_eq_some_iff.1 hhere
      constructor
      · intro h
        obtain ⟨rfl, rfl⟩ := Prod.mk.inj (Option.some.inj h)
        exact ⟨hs, by simp, by simp⟩
      · rintro ⟨htext, -, hfirst⟩
        rw [hs] at htext
        cases text with
        | nil =>
          obtain ⟨-, htail⟩ := List.cons.inj htext
          obtain ⟨-, rfl⟩ := List.cons.inj htail
          rfl
        | cons e text =>
          obtain ⟨rfl, htail⟩ := List.cons.inj htext
          cases text with
          | nil => cases (List.cons.inj htail).1
          | cons f text =>
            obtain ⟨rfl, -⟩ := List.cons.inj htail
            exact absurd ⟨[], text, rfl⟩ hfirst
    | none =>
      constructor
      · intro h
        dsimp only at h
        split at h
        · cases h
        · next hc =>
          obtain ⟨⟨tail, after⟩, htail, heq⟩ := Option.map_eq_some_iff.1 h
          obtain ⟨rfl, rfl⟩ := Prod.mk.inj heq
          obtain ⟨rfl, hnewline, hfirst⟩ := ih.1 htail
          refine ⟨rfl, by simpa [hnewline] using Ne.symm hc, ?_⟩
          rw [List.infix_cons_iff, not_or]
          refine ⟨?_, hfirst⟩
          rintro ⟨more, hmore⟩
          have hprefix : c :: (tail ++ ']' :: '(' :: after) =
              [']', '('] ++ (more ++ ']' :: '(' :: after) := by
            rw [← List.cons_append, ← hmore]
            rfl
          rw [Text.dropPrefix?_eq_some_iff.2 hprefix] at hhere
          cases hhere
      · rintro ⟨htext, hnewline, hfirst⟩
        cases text with
        | nil =>
          rw [htext] at hhere
          cases hhere
        | cons e text =>
          obtain ⟨rfl, rfl⟩ := List.cons.inj htext
          rw [List.mem_cons, not_or] at hnewline
          rw [List.infix_cons_iff, not_or] at hfirst
          dsimp only
          rw [if_neg (Ne.symm hnewline.1), ih.2 ⟨rfl, hnewline.2, hfirst.2⟩]
          rfl

theorem afterBracket?_cons (c : Char) (s : Text) :
    afterBracket? (c :: s) =
      ((Text.dropPrefix? [']', '('] (c :: s)).bind fun s =>
          (target? s).map fun (target, title, rest) => (⟨[], target, title⟩, rest)).or
        (if c = '\n' then none
          else (afterBracket? s).map fun (link, rest) => ({ link with text := c :: link.text }, rest)) := by
  conv => lhs; unfold afterBracket?
  simp only
  by_cases hclose : c = ']'
  · subst hclose
    cases s with
    | nil => rfl
    | cons d s =>
      by_cases hopen : d = '('
      · subst hopen
        cases htarget : target? s <;> simp [Text.dropPrefix?, htarget]
      · simp [Text.dropPrefix?, hopen, Ne.symm hopen]
  · simp [Text.dropPrefix?, hclose, Ne.symm hclose]

theorem isSome_target?_of_afterBracket? (h : (afterBracket? s).isSome) : (target? s).isSome := by
  induction s with
  | nil => cases h
  | cons c s ih =>
    rw [afterBracket?_cons, Option.isSome_or, Bool.or_eq_true] at h
    rcases h with hhere | hlater
    · cases hdrop : Text.dropPrefix? [']', '('] (c :: s) with
      | none =>
        rw [hdrop] at hhere
        cases hhere
      | some rest =>
        rw [hdrop, Option.bind_some, Option.isSome_map] at hhere
        rw [Text.dropPrefix?_eq_some_iff.1 hdrop]
        exact isSome_target?_append (by decide) hhere
    · split at hlater
      · cases hlater
      · next hc =>
        rw [Option.isSome_map] at hlater
        exact isSome_target?_append (w := [c]) (by simpa using Ne.symm hc) (ih hlater)

theorem afterBracket?_eq (s : Text) :
    afterBracket? s = (text? s).bind fun (text, s) =>
      (target? s).map fun (target, title, rest) => (⟨text, target, title⟩, rest) := by
  induction s with
  | nil => rfl
  | cons c s ih =>
    rw [afterBracket?_cons, text?]
    cases hdrop : Text.dropPrefix? [']', '('] (c :: s) with
    | none =>
      dsimp only
      rw [Option.bind_none, Option.none_or, ih]
      split
      · rfl
      · cases htext : text? s with
        | none => rfl
        | some found =>
          simp only [Option.bind_some, Option.map_some, Option.map_map]
          rfl
    | some rest =>
      dsimp only
      rw [Option.bind_some, Option.bind_some]
      cases htarget : target? rest with
      | some found => rfl
      | none =>
        -- A link behind a later `](` would have made one here.
        obtain ⟨rfl, hs⟩ := List.cons.inj (Text.dropPrefix?_eq_some_iff.1 hdrop)
        have hlater : afterBracket? s = none := by
          rw [← Option.not_isSome_iff_eq_none]
          intro hsome
          rw [show s = ['('] ++ rest from hs, List.singleton_append, afterBracket?_cons] at hsome
          have hrest : (afterBracket? rest).isSome = true := by
            simpa [Text.dropPrefix?] using hsome
          have hsome := isSome_target?_of_afterBracket? hrest
          rw [htarget] at hsome
          cases hsome
        rw [hlater]
        rfl

theorem eq_of_afterBracket? {link : Link} (h : afterBracket? s = some (link, rest)) :
    s = link.text ++ "](" ++ link.target ++ link.title ++ ')' :: rest ∧ '\n' ∉ link.target := by
  rw [afterBracket?_eq, Option.bind_eq_some_iff] at h
  obtain ⟨⟨text, t⟩, htext, hlink⟩ := h
  obtain ⟨⟨target, title, after⟩, htarget, heq⟩ := Option.map_eq_some_iff.1 hlink
  obtain ⟨rfl, rfl⟩ := Prod.mk.inj heq
  obtain ⟨rfl, -⟩ := text?_eq_some_iff.1 htext
  obtain ⟨rfl, hline⟩ := eq_of_target? htarget
  exact ⟨by simp, hline⟩

/-! ## Links -/

theorem source_ne_nil (link : Link) : link.source ≠ [] := by simp [source]

theorem atStart?_of_ne {c : Char} (hc : c ≠ '[') (s : Text) : atStart? (c :: s) = none := by
  unfold atStart?
  split
  · next h => exact absurd (List.cons.inj h).1 hc
  · rfl

theorem atStart?_eq_some_iff {link : Link} :
    atStart? s = some link ↔ ∃ t rest,
      s = '[' :: (link.text ++ ']' :: '(' :: t) ∧ '\n' ∉ link.text ∧ ¬ [']', '('] <:+: link.text ∧
      target? t = some (link.target, link.title, rest) := by
  constructor
  · intro h
    unfold atStart? at h
    split at h
    · obtain ⟨⟨found, rest⟩, hafter, rfl⟩ := Option.map_eq_some_iff.1 h
      rw [afterBracket?_eq, Option.bind_eq_some_iff] at hafter
      obtain ⟨⟨text, t⟩, htext, hlink⟩ := hafter
      dsimp only at hlink
      obtain ⟨⟨target, title, after⟩, htarget, heq⟩ := Option.map_eq_some_iff.1 hlink
      obtain ⟨rfl, rfl⟩ := Prod.mk.inj heq
      obtain ⟨rfl, hnewline, hfirst⟩ := text?_eq_some_iff.1 htext
      exact ⟨t, after, rfl, hnewline, hfirst, htarget⟩
    · cases h
  · rintro ⟨t, rest, rfl, hnewline, hfirst, htarget⟩
    show (afterBracket? _).map (·.1) = _
    rw [afterBracket?_eq, text?_eq_some_iff.2 ⟨rfl, hnewline, hfirst⟩, Option.bind_some]
    dsimp only
    rw [htarget]
    rfl

/-- A link that is found stands at the start of the text, and its target within a line. -/
theorem exists_of_atStart? {link : Link} (h : atStart? s = some link) :
    '\n' ∉ link.target ∧ ∃ rest, s = link.source ++ rest := by
  unfold atStart? at h
  split at h
  · obtain ⟨⟨found, rest⟩, hafter, rfl⟩ := Option.map_eq_some_iff.1 h
    obtain ⟨hs, htarget⟩ := eq_of_afterBracket? hafter
    refine ⟨htarget, rest, ?_⟩
    rw [hs, source]
    simp
  · cases h

theorem source_append (link : Link) (rest : Text) :
    link.source ++ rest =
      '[' :: (link.text ++ ']' :: '(' :: (link.target ++ (link.title ++ ')' :: rest))) := by
  simp [source]

theorem atStart?_source_iff {link : Link} :
    atStart? (link.source ++ rest) = some link ↔
      '\n' ∉ link.text ∧ ¬ [']', '('] <:+: link.text ∧
      target? (link.target ++ (link.title ++ ')' :: rest)) = some (link.target, link.title, rest) := by
  rw [source_append, atStart?_eq_some_iff]
  constructor
  · rintro ⟨t, after, hs, hnewline, hfirst, htarget⟩
    obtain rfl : _ = t := (List.cons.inj (List.cons.inj (List.append_cancel_left
      (List.cons.inj hs).2)).2).2
    have hsplit := (eq_of_target? htarget).1
    rw [List.append_assoc] at hsplit
    obtain rfl : rest = after := (List.cons.inj (List.append_cancel_left
      (List.append_cancel_left hsplit))).2
    exact ⟨hnewline, hfirst, htarget⟩
  · rintro ⟨hnewline, hfirst, htarget⟩
    exact ⟨_, rest, rfl, hnewline, hfirst, htarget⟩

end Galley.Document.Link
