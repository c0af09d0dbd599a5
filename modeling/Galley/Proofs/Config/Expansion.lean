import Galley.Proofs.Config.Load
import Galley.Proofs.Text.Split
import Mathlib.Data.List.TakeWhile

/-!
# Dollar signs in settings

By the rule for settings only references in braces are replaced, and every other dollar sign stays
(`Replaces`). But where a brace follows a dollar sign anywhere in a setting, a name behind a dollar
sign is replaced too, and two dollar signs become one. So a setting is expanded by the rule in every
environment exactly if no brace follows a dollar sign in it or if, outside of its references, no
dollar sign is followed by another one or by a name (`expand_replaces_iff`).
-/

namespace Galley.Expansion

open Text (splitFrom splitOn joinWith)

variable {valueOf? : Text → Option Text} {c : Char} {s rest inside name out : Text}

/-! ## Names and defaults -/

/-- What stands between the braces of a reference leads to a value: to that of a variable, or else
to the default behind the first separator that has a name before it. -/
inductive Denotes (valueOf? : Text → Option Text) : Text → Text → Prop
  | plain {name value : Text} (h : separator <:+: name → separator <+: name)
    (hvalue : valueOf? name = some value) : Denotes valueOf? name value
  | withDefault {name default : Text} (hname : name ≠ []) (h : ¬ separator <:+: name) :
    Denotes valueOf? (name ++ (separator ++ default)) ((valueOf? name).getD default)

theorem splitOn_separator_append (default : Text) :
    splitOn separator (separator ++ default) = [] :: splitOn separator default :=
  Text.splitFrom_self (by decide)

theorem splitOn_name_append (h : ¬ separator <:+: name) (default : Text) :
    splitOn separator (name ++ (separator ++ default)) = name :: splitOn separator default := by
  have hsplit := Text.splitFrom_append (p := separator) (u := name) (s := separator ++ default)
    fun v hv hne hprefix => by
      obtain ⟨c, v, rfl⟩ := List.exists_cons_of_ne_nil hne
      cases v with
      | nil =>
        -- a separator that begins with the last character of the name would go on with a colon
        have hdash := (List.cons_prefix_cons.1 hprefix).2
        exact absurd (List.cons_prefix_cons.1 hdash).1 (by decide)
      | cons d v =>
        have hshort : separator <+: c :: d :: v :=
          List.prefix_of_prefix_length_le hprefix (List.prefix_append _ _) (by simp [separator])
        exact h (hshort.isInfix.trans hv.isInfix)
  have hself : splitFrom separator 0 (separator ++ default) = [] :: splitOn separator default :=
    splitOn_separator_append default
  rw [splitOn, hsplit, hself]
  simp

theorem nameAndDefault_name_append (hname : name ≠ []) (h : ¬ separator <:+: name)
    (default : Text) : nameAndDefault (name ++ (separator ++ default)) = (name, some default) := by
  obtain ⟨c, name, rfl⟩ := List.exists_cons_of_ne_nil hname
  obtain ⟨piece, pieces, hpieces⟩ :=
    List.exists_cons_of_ne_nil (Text.splitFrom_ne_nil separator 0 default)
  have hjoin : joinWith separator (piece :: pieces) = default := by
    rw [← hpieces]
    exact Text.joinWith_splitOn (by decide) default
  unfold nameAndDefault
  rw [splitOn_name_append h, splitOn, hpieces]
  simp only [hjoin]

theorem nameAndDefault_plain (h : separator <:+: name → separator <+: name) :
    nameAndDefault name = (name, none) := by
  unfold nameAndDefault
  by_cases hinfix : separator <:+: name
  · obtain ⟨rest, rfl⟩ := h hinfix
    rw [splitOn_separator_append]
  · have hnone : Text.hasInfix separator name = false := by
      rw [Bool.eq_false_iff, Ne, Text.hasInfix_iff]
      exact hinfix
    rw [Text.splitOn_of_not_hasInfix hnone]
    cases name with
    | nil => rfl
    | cons c name => rfl

theorem plain_or_withDefault (inside : Text) :
    (separator <:+: inside → separator <+: inside) ∨
      ∃ name default, name ≠ [] ∧ ¬ separator <:+: name ∧
        inside = name ++ (separator ++ default) := by
  have hjoin : joinWith separator (splitOn separator inside) = inside :=
    Text.joinWith_splitOn (by decide) inside
  have hfree : ∀ piece ∈ splitOn separator inside, ¬ separator <:+: piece :=
    fun piece => Text.not_isInfix_of_mem_splitOn (by decide)
  generalize splitOn separator inside = pieces at hjoin hfree
  cases pieces with
  | nil => exact .inl fun h => by simp [← hjoin, joinWith, separator] at h
  | cons name pieces =>
    cases pieces with
    | nil =>
      rw [joinWith] at hjoin
      exact .inl fun h => absurd (hjoin ▸ h) (hfree name List.mem_cons_self)
    | cons piece pieces =>
      rw [joinWith] at hjoin
      · rw [List.append_assoc] at hjoin
        by_cases hname : name = []
        · exact .inl fun _ => ⟨joinWith separator (piece :: pieces), by rw [← hjoin, hname]; rfl⟩
        · exact .inr ⟨name, _, hname, hfree name List.mem_cons_self, hjoin.symm⟩
      · exact List.cons_ne_nil piece pieces

theorem value_eq_ok_iff {default? : Option Text} {v : Text} :
    value valueOf? name default? = .ok v ↔ (valueOf? name).or default? = some v := by
  unfold value
  split
  · next w hw => rw [hw, Option.some.injEq, Except.ok.injEq]
  · next hnone => simp [hnone]

theorem value_nameAndDefault_eq_ok_iff {v : Text} :
    value valueOf? (nameAndDefault inside).1 (nameAndDefault inside).2 = .ok v ↔
      Denotes valueOf? inside v := by
  rw [value_eq_ok_iff]
  constructor
  · intro hvalue
    rcases plain_or_withDefault inside with hplain | ⟨name, default, hname, hfree, rfl⟩
    · rw [nameAndDefault_plain hplain, Option.or_none] at hvalue
      exact .plain hplain hvalue
    · rw [nameAndDefault_name_append hname hfree] at hvalue
      obtain rfl : (valueOf? name).getD default = v := by
        cases hset : valueOf? name with
        | none => simpa [hset] using hvalue
        | some w => simpa [hset] using hvalue
      exact .withDefault hname hfree
  · rintro (⟨hplain, hvalue⟩ | ⟨hname, hfree⟩)
    · rw [nameAndDefault_plain hplain, Option.or_none]
      exact hvalue
    · rw [nameAndDefault_name_append hname hfree]
      cases h : valueOf? _ with
      | none => rfl
      | some w => rfl

/-! ## The rule -/

def BeginsReference (s : Text) : Prop :=
  ∃ inside rest, s = '$' :: '\x7b' :: (inside ++ '\x7d' :: rest)

/-- The second text is the first one with its references in braces replaced by their values. -/
inductive Replaces (valueOf? : Text → Option Text) : Text → Text → Prop
  | nil : Replaces valueOf? [] []
  | reference {inside value rest out : Text} (hinside : '\x7d' ∉ inside)
    (hvalue : Denotes valueOf? inside value) (hrest : Replaces valueOf? rest out) :
    Replaces valueOf? ('$' :: '\x7b' :: (inside ++ '\x7d' :: rest)) (value ++ out)
  | other {c : Char} {rest out : Text} (h : ¬ BeginsReference (c :: rest))
    (hrest : Replaces valueOf? rest out) : Replaces valueOf? (c :: rest) (c :: out)

/-- Whether a dollar sign in front of the text stands for something else than itself when the text
has no reference in braces: the text begins with another dollar sign or with a name. -/
def isTaken (s : Text) : Bool := s.head?.any fun c => c = '$' || isNameChar c

/-- Outside of references in braces, every dollar sign stands for itself. -/
inductive Quiet : Text → Prop
  | nil : Quiet []
  | reference {inside rest : Text} (hinside : '\x7d' ∉ inside) (hrest : Quiet rest) :
    Quiet ('$' :: '\x7b' :: (inside ++ '\x7d' :: rest))
  | other {c : Char} {rest : Text} (h : ¬ BeginsReference (c :: rest))
    (hc : c = '$' → isTaken rest = false) (hrest : Quiet rest) : Quiet (c :: rest)

theorem BeginsReference.exists_inside (h : BeginsReference s) :
    ∃ inside rest, '\x7d' ∉ inside ∧ s = '$' :: '\x7b' :: (inside ++ '\x7d' :: rest) := by
  obtain ⟨inside, rest, rfl⟩ := h
  obtain ⟨first, behind, hfirst, hfree⟩ :=
    List.eq_append_cons_of_mem (List.mem_append_right inside (List.mem_cons_self (l := rest)))
  exact ⟨first, behind, hfree, by rw [hfirst]⟩

theorem takeWhile_inside (h : '\x7d' ∉ inside) (rest : Text) :
    (inside ++ '\x7d' :: rest).takeWhile (· ≠ '\x7d') = inside := by
  rw [List.takeWhile_append_of_pos]
  · simp
  · intro c hc
    exact decide_eq_true fun heq => h (heq ▸ hc)

theorem replaces_reference_iff (hinside : '\x7d' ∉ inside) :
    Replaces valueOf? ('$' :: '\x7b' :: (inside ++ '\x7d' :: rest)) out ↔
      ∃ value t, Denotes valueOf? inside value ∧ Replaces valueOf? rest t ∧ value ++ t = out := by
  constructor
  · intro h
    generalize hs : ('$' :: '\x7b' :: (inside ++ '\x7d' :: rest) : Text) = s at h
    cases h with
    | nil => cases hs
    | reference hother hvalue hrest =>
      have hbraces := (List.cons.inj (List.cons.inj hs).2).2
      obtain rfl : inside = _ :=
        (takeWhile_inside hinside _).symm.trans (hbraces ▸ takeWhile_inside hother _)
      obtain ⟨-, rfl⟩ := List.cons.inj (List.append_cancel_left hbraces)
      exact ⟨_, _, hvalue, hrest, rfl⟩
    | other h hrest => exact absurd ⟨inside, rest, hs.symm⟩ h
  · rintro ⟨value, t, hvalue, hrest, rfl⟩
    exact .reference hinside hvalue hrest

theorem replaces_cons_iff (h : ¬ BeginsReference (c :: s)) :
    Replaces valueOf? (c :: s) out ↔ ∃ t, Replaces valueOf? s t ∧ c :: t = out := by
  constructor
  · intro hout
    generalize hs : c :: s = text at hout
    cases hout with
    | nil => cases hs
    | reference hinside hvalue hrest => exact absurd ⟨_, _, hs⟩ h
    | other hother hrest =>
      obtain ⟨rfl, rfl⟩ := List.cons.inj hs
      exact ⟨_, hrest, rfl⟩
  · rintro ⟨t, hrest, rfl⟩
    exact .other h hrest

/-! ## What is expanded -/

theorem expandFrom_skip (skipped s : Text) :
    expandFrom valueOf? skipped.length (skipped ++ s) = expandFrom valueOf? 0 s := by
  induction skipped with
  | nil => rfl
  | cons c skipped ih => exact ih

theorem expandFrom_cons_eq_ok_iff (hc : c ≠ '$') :
    expandFrom valueOf? 0 (c :: s) = .ok out ↔
      ∃ t, expandFrom valueOf? 0 s = .ok t ∧ c :: t = out := by
  rw [expandFrom, if_neg hc, Config.bind_eq_ok_iff]
  exact exists_congr fun t => and_congr_right fun _ => Iff.of_eq (Except.ok.injEq (c :: t) out)

theorem expandFrom_dollar_eq_ok_iff :
    expandFrom valueOf? 0 ('$' :: s) = .ok out ↔
      ∃ found t, reference valueOf? s = .ok found ∧ expandFrom valueOf? found.2 s = .ok t ∧
        found.1 ++ t = out := by
  rw [expandFrom, if_pos rfl, Config.bind_eq_ok_iff]
  refine exists_congr fun found => ?_
  rw [Config.bind_eq_ok_iff, exists_and_left]
  refine and_congr_right fun _ => exists_congr fun t => and_congr_right fun _ => ?_
  exact Iff.of_eq (Except.ok.injEq (found.1 ++ t) out)

theorem reference_inside (hinside : '\x7d' ∉ inside) :
    reference valueOf? ('\x7b' :: (inside ++ '\x7d' :: rest)) =
      (value valueOf? (nameAndDefault inside).1 (nameAndDefault inside).2).map
        (·, inside.length + 2) := by
  have hlength : inside.length ≠ (inside ++ '\x7d' :: rest).length := by simp
  unfold reference
  simp only [takeWhile_inside hinside, if_neg hlength]

theorem reference_self (h : ¬ BeginsReference ('$' :: s)) (hs : isTaken s = false) :
    (∃ t, s = '\x7b' :: t ∧ reference valueOf? s = .ok ("$\x7b", 1)) ∨
      reference valueOf? s = .ok (['$'], 0) := by
  unfold reference
  split
  · next t =>
    have hall : t.takeWhile (· ≠ '\x7d') = t := by
      refine List.takeWhile_eq_self_iff.2 fun c hc => decide_eq_true fun heq => h ?_
      obtain ⟨inside, rest, rfl⟩ := List.append_of_mem (heq ▸ hc)
      exact ⟨inside, rest, rfl⟩
    exact .inl ⟨t, rfl, by simp only [hall, if_true]⟩
  · cases hs
  · have hnone : s.takeWhile isNameChar = [] := by
      cases s with
      | nil => rfl
      | cons d s =>
        have hd : isNameChar d = false := by
          rw [isTaken, List.head?_cons, Option.any_some, Bool.or_eq_false_iff] at hs
          exact hs.2
        rw [List.takeWhile_cons, hd]
        rfl
    refine .inr ?_
    simp only [hnone]
    rfl

theorem reference_name (hc : isNameChar c = true) :
    reference valueOf? (c :: s) =
      (value valueOf? ((c :: s).takeWhile isNameChar) none).map
        (·, ((c :: s).takeWhile isNameChar).length) := by
  have hname : ((c :: s).takeWhile isNameChar).isEmpty = false := by simp [hc]
  unfold reference
  split
  · next heq => exact absurd ((List.cons.inj heq).1 ▸ hc) (by decide +kernel)
  · next heq => exact absurd ((List.cons.inj heq).1 ▸ hc) (by decide +kernel)
  · simp only [hname, Bool.false_eq_true, if_false]

theorem expandFrom_reference_eq_ok_iff (hinside : '\x7d' ∉ inside) :
    expandFrom valueOf? 0 ('$' :: '\x7b' :: (inside ++ '\x7d' :: rest)) = .ok out ↔
      ∃ value t, Denotes valueOf? inside value ∧ expandFrom valueOf? 0 rest = .ok t ∧
        value ++ t = out := by
  have hskip : expandFrom valueOf? (inside.length + 2) ('\x7b' :: (inside ++ '\x7d' :: rest)) =
      expandFrom valueOf? 0 rest := by
    have hbehind := @expandFrom_skip valueOf? ('\x7b' :: (inside ++ ['\x7d'])) rest
    simpa using hbehind
  rw [expandFrom_dollar_eq_ok_iff, reference_inside hinside]
  constructor
  · rintro ⟨found, t, hfound, ht, rfl⟩
    cases hvalue : value valueOf? (nameAndDefault inside).1 (nameAndDefault inside).2 with
    | error name =>
      rw [hvalue] at hfound
      cases hfound
    | ok v =>
      rw [hvalue] at hfound
      obtain rfl := Except.ok.inj hfound
      exact ⟨v, t, value_nameAndDefault_eq_ok_iff.1 hvalue, hskip ▸ ht, rfl⟩
  · rintro ⟨v, t, hvalue, ht, rfl⟩
    refine ⟨(v, inside.length + 2), t, ?_, hskip.trans ht, rfl⟩
    rw [value_nameAndDefault_eq_ok_iff.2 hvalue]
    rfl

theorem expandFrom_self_eq_ok_iff (h : ¬ BeginsReference ('$' :: s)) (hs : isTaken s = false) :
    expandFrom valueOf? 0 ('$' :: s) = .ok out ↔
      ∃ t, expandFrom valueOf? 0 s = .ok t ∧ '$' :: t = out := by
  rw [expandFrom_dollar_eq_ok_iff]
  rcases @reference_self valueOf? s h hs with ⟨behind, rfl, hself⟩ | hself
  · rw [hself]
    simp only [expandFrom_cons_eq_ok_iff (show '\x7b' ≠ '$' by decide)]
    constructor
    · rintro ⟨found, t, hfound, ht, rfl⟩
      obtain rfl := Except.ok.inj hfound
      exact ⟨'\x7b' :: t, ⟨t, ht, rfl⟩, rfl⟩
    · rintro ⟨_, ⟨t, ht, rfl⟩, rfl⟩
      exact ⟨_, t, rfl, ht, rfl⟩
  · rw [hself]
    constructor
    · rintro ⟨found, t, hfound, ht, rfl⟩
      obtain rfl := Except.ok.inj hfound
      exact ⟨t, ht, rfl⟩
    · rintro ⟨t, ht, rfl⟩
      exact ⟨_, t, rfl, ht, rfl⟩

theorem expandFrom_doubled_eq_ok_iff :
    expandFrom valueOf? 0 ('$' :: '$' :: s) = .ok out ↔
      ∃ t, expandFrom valueOf? 0 s = .ok t ∧ '$' :: t = out := by
  rw [expandFrom_dollar_eq_ok_iff]
  constructor
  · rintro ⟨found, t, hfound, ht, rfl⟩
    obtain rfl := Except.ok.inj hfound
    exact ⟨t, ht, rfl⟩
  · rintro ⟨t, ht, rfl⟩
    exact ⟨_, t, rfl, ht, rfl⟩

/-- Where every bare dollar sign stands for itself, a setting is expanded by the rule. -/
theorem Quiet.expandFrom_eq_ok_iff (h : Quiet s) :
    expandFrom valueOf? 0 s = .ok out ↔ Replaces valueOf? s out := by
  induction h generalizing out with
  | nil => exact ⟨fun h => Except.ok.inj h ▸ .nil, fun h => by cases h; rfl⟩
  | reference hinside hrest ih =>
    rw [expandFrom_reference_eq_ok_iff hinside, replaces_reference_iff hinside]
    simp only [ih]
  | @other c rest h hc hrest ih =>
    rw [replaces_cons_iff h]
    simp only [← ih]
    by_cases hdollar : c = '$'
    · subst hdollar
      exact expandFrom_self_eq_ok_iff h (hc rfl)
    · exact expandFrom_cons_eq_ok_iff hdollar

/-! ## Where the rule is broken -/

/-- An environment in which every variable has the same value, which holds no dollar sign. -/
def everySet : Text → Option Text := fun _ => some ['x']

theorem Denotes.eq_of_everySet {value : Text} (h : Denotes everySet inside value) :
    value = ['x'] := by
  cases h with
  | plain h hvalue => exact (Option.some.inj hvalue).symm
  | withDefault hname h => rfl

theorem exists_reference_everySet (s : Text) : ∃ found, reference everySet s = .ok found := by
  have hvalue : ∀ name default?, value everySet name default? = .ok ['x'] := fun _ _ => rfl
  unfold reference
  split
  · dsimp only
    split
    · exact ⟨_, rfl⟩
    · exact ⟨_, congrArg (Except.map _) (hvalue _ _)⟩
  · exact ⟨_, rfl⟩
  · dsimp only
    split
    · exact ⟨_, rfl⟩
    · exact ⟨_, congrArg (Except.map _) (hvalue _ _)⟩

theorem exists_expandFrom_everySet (skip : Nat) (s : Text) :
    ∃ out, expandFrom everySet skip s = .ok out := by
  induction s generalizing skip with
  | nil => exact ⟨[], by cases skip <;> rfl⟩
  | cons c s ih =>
    cases skip with
    | succ skip => exact ih skip
    | zero =>
      by_cases hc : c = '$'
      · subst hc
        obtain ⟨found, hfound⟩ := exists_reference_everySet s
        obtain ⟨t, ht⟩ := ih found.2
        exact ⟨found.1 ++ t, expandFrom_dollar_eq_ok_iff.2 ⟨found, t, hfound, ht, rfl⟩⟩
      · obtain ⟨t, ht⟩ := ih 0
        exact ⟨c :: t, (expandFrom_cons_eq_ok_iff hc).2 ⟨t, ht, rfl⟩⟩

theorem head?_of_expandFrom_name (hc : isNameChar c = true)
    (h : expandFrom everySet 0 ('$' :: c :: s) = .ok out) : out.head? = some 'x' := by
  obtain ⟨found, t, hfound, -, rfl⟩ := expandFrom_dollar_eq_ok_iff.1 h
  rw [reference_name hc] at hfound
  obtain rfl := Except.ok.inj hfound
  rfl

theorem isTaken_cases (s : Text) :
    isTaken s = false ∨ (∃ t, s = '$' :: t) ∨ ∃ c t, isNameChar c = true ∧ s = c :: t := by
  cases s with
  | nil => exact .inl rfl
  | cons c s =>
    by_cases hdollar : c = '$'
    · exact .inr (.inl ⟨s, by rw [hdollar]⟩)
    · cases hname : isNameChar c with
      | true => exact .inr (.inr ⟨c, s, hname, rfl⟩)
      | false => exact .inl (by simp [isTaken, hdollar, hname])

theorem not_beginsReference_of_ne (hc : c ≠ '\x7b') : ¬ BeginsReference ('$' :: c :: s) := by
  rintro ⟨inside, rest, hs⟩
  exact hc (List.cons.inj (List.cons.inj hs).2).1

theorem expandFrom_reference_head (h : BeginsReference ('$' :: s))
    (hout : expandFrom everySet 0 ('$' :: s) = .ok out) : out.head? = some 'x' := by
  obtain ⟨inside, rest, hinside, hs⟩ := h.exists_inside
  rw [hs, expandFrom_reference_eq_ok_iff hinside] at hout
  obtain ⟨value, t, hvalue, -, rfl⟩ := hout
  rw [hvalue.eq_of_everySet]
  rfl

/-- With more dollar signs in front of it, a text gives something else by the rule than without
them by the program. The induction is on the text, since the program takes two signs for one. -/
theorem expandFrom_ne_of_replaces (n : Nat)
    (h : Replaces everySet (List.replicate (n + 1) '$' ++ s) out) :
    expandFrom everySet 0 s ≠ .ok out := by
  induction hlength : s.length using Nat.strong_induction_on generalizing n s out with
  | _ length ih =>
  intro hout
  have hmore : ∀ k (t : Text),
      List.replicate k '$' ++ '$' :: t = List.replicate (k + 1) '$' ++ t := by
    intro k t
    rw [List.replicate_succ', List.append_assoc, List.singleton_append]
  by_cases hbegins : n = 0 ∧ BeginsReference ('$' :: s)
  · obtain ⟨rfl, hbegins⟩ := hbegins
    obtain ⟨inside, rest, hinside, hs⟩ := hbegins.exists_inside
    obtain rfl := (List.cons.inj hs).2
    obtain ⟨value, t, hvalue, -, rfl⟩ := (replaces_reference_iff hinside).1 h
    obtain ⟨u, -, hu⟩ := (expandFrom_cons_eq_ok_iff (by decide)).1 hout
    rw [hvalue.eq_of_everySet] at hu
    cases hu
  have hkept : ¬ BeginsReference ('$' :: (List.replicate n '$' ++ s)) := by
    cases n with
    | zero => exact fun hs => hbegins ⟨rfl, hs⟩
    | succ n => exact not_beginsReference_of_ne (by decide)
  obtain ⟨t, ht, rfl⟩ := (replaces_cons_iff hkept).1 h
  cases s with
  | nil => cases hout
  | cons c s =>
    by_cases hc : c = '$'
    · subst hc
      rw [List.length_cons] at hlength
      by_cases href : BeginsReference ('$' :: s)
      · cases expandFrom_reference_head href hout
      rcases isTaken_cases s with hself | ⟨behind, rfl⟩ | ⟨d, behind, hd, rfl⟩
      · obtain ⟨u, hu, heq⟩ := (expandFrom_self_eq_ok_iff href hself).1 hout
        obtain ⟨-, rfl⟩ := List.cons.inj heq
        exact ih s.length (by omega) n (hmore n s ▸ ht) rfl hu
      · obtain ⟨u, hu, heq⟩ := expandFrom_doubled_eq_ok_iff.1 hout
        obtain ⟨-, rfl⟩ := List.cons.inj heq
        rw [hmore, hmore] at ht
        rw [List.length_cons] at hlength
        exact ih behind.length (by omega) (n + 1) ht rfl hu
      · cases head?_of_expandFrom_name hd hout
    · obtain ⟨u, -, hu⟩ := (expandFrom_cons_eq_ok_iff hc).1 hout
      exact hc (List.cons.inj hu).1

theorem quiet_of_replaces (h : Replaces everySet s out) (hout : expandFrom everySet 0 s = .ok out) :
    Quiet s := by
  induction h with
  | nil => exact .nil
  | reference hinside hvalue hrest ih =>
    obtain ⟨value, t, hvalue', ht, heq⟩ := (expandFrom_reference_eq_ok_iff hinside).1 hout
    rw [hvalue.eq_of_everySet, hvalue'.eq_of_everySet] at heq
    exact .reference hinside (ih (List.append_cancel_left heq ▸ ht))
  | @other c rest t h hrest ih =>
    by_cases hc : c = '$'
    · subst hc
      rcases isTaken_cases rest with hself | ⟨behind, rfl⟩ | ⟨d, behind, hd, rfl⟩
      · obtain ⟨u, hu, heq⟩ := (expandFrom_self_eq_ok_iff h hself).1 hout
        obtain ⟨-, rfl⟩ := List.cons.inj heq
        exact .other h (fun _ => hself) (ih hu)
      · obtain ⟨u, hu, heq⟩ := expandFrom_doubled_eq_ok_iff.1 hout
        obtain ⟨-, rfl⟩ := List.cons.inj heq
        exact absurd hu (expandFrom_ne_of_replaces 0 hrest)
      · cases head?_of_expandFrom_name hd hout
    · obtain ⟨u, hu, heq⟩ := (expandFrom_cons_eq_ok_iff hc).1 hout
      obtain ⟨-, rfl⟩ := List.cons.inj heq
      exact .other h (fun hdollar => absurd hdollar hc) (ih hu)

/-! ## Both agree -/

theorem replaces_iff_of_not_hasInfix (h : ¬ ['$', '\x7b'] <:+: s) :
    Replaces valueOf? s out ↔ s = out := by
  induction s generalizing out with
  | nil => exact ⟨fun hout => by cases hout; rfl, fun heq => heq ▸ .nil⟩
  | cons c s ih =>
    rw [List.infix_cons_iff, not_or] at h
    have hkept : ¬ BeginsReference (c :: s) := by
      rintro ⟨inside, rest, hs⟩
      exact h.1 ⟨inside ++ '\x7d' :: rest, hs.symm⟩
    rw [replaces_cons_iff hkept]
    simp only [ih h.2, exists_eq_left']

theorem expand_of_not_hasInfix (h : ¬ ['$', '\x7b'] <:+: s) : expand valueOf? s = .ok s := by
  unfold expand
  rw [if_neg]
  rw [Text.hasInfix_iff]
  exact h

theorem expand_of_hasInfix (h : ['$', '\x7b'] <:+: s) :
    expand valueOf? s = expandFrom valueOf? 0 s := by
  unfold expand
  rw [if_pos]
  rw [Text.hasInfix_iff]
  exact h

theorem expand_eq_ok_iff_replaces (h : ¬ ['$', '\x7b'] <:+: s ∨ Quiet s) :
    expand valueOf? s = .ok out ↔ Replaces valueOf? s out := by
  by_cases hinfix : ['$', '\x7b'] <:+: s
  · rw [expand_of_hasInfix hinfix]
    exact (h.resolve_left (not_not_intro hinfix)).expandFrom_eq_ok_iff
  · rw [expand_of_not_hasInfix hinfix, replaces_iff_of_not_hasInfix hinfix, Except.ok.injEq]

/-- A setting is expanded by the rule in every environment, so that its bare dollar signs stay,
exactly if no brace follows a dollar sign in it, or if outside of its references no dollar sign is
followed by another one or by a name. Then the expansion gives a result whenever the rule does. -/
theorem expand_replaces_iff (setting : Text) :
    ((∀ valueOf? out, expand valueOf? setting = .ok out → Replaces valueOf? setting out) ↔
        ¬ ['$', '\x7b'] <:+: setting ∨ Quiet setting) ∧
      ((∀ valueOf? out, expand valueOf? setting = .ok out ↔ Replaces valueOf? setting out) ↔
        ¬ ['$', '\x7b'] <:+: setting ∨ Quiet setting) := by
  have hquiet : (∀ valueOf? out, expand valueOf? setting = .ok out →
      Replaces valueOf? setting out) → ¬ ['$', '\x7b'] <:+: setting ∨ Quiet setting := by
    intro h
    refine or_iff_not_imp_left.2 fun hinfix => ?_
    obtain ⟨out, hout⟩ := exists_expandFrom_everySet 0 setting
    have hexpand := (expand_of_hasInfix (not_not.1 hinfix)).trans hout
    exact quiet_of_replaces (h everySet out hexpand) hout
  refine ⟨⟨hquiet, fun h valueOf? out => (expand_eq_ok_iff_replaces h).1⟩, ?_⟩
  exact ⟨fun h => hquiet fun valueOf? out => (h valueOf? out).1,
    fun h valueOf? out => expand_eq_ok_iff_replaces h⟩

/-- A setting with a dollar sign in front of a blank, and one at its end. -/
def pricedTitle : Text := "$ $\x7bA:-5\x7d$"

theorem expand_replaces_iff_pricedTitle :
    Quiet pricedTitle ∧ ∀ valueOf? out, expand valueOf? pricedTitle = .ok out ↔
      Replaces valueOf? pricedTitle out := by
  have hquiet : Quiet pricedTitle := by
    refine .other (not_beginsReference_of_ne (by decide)) (fun _ => by decide +kernel) ?_
    refine .other ?_ (fun h => absurd h (by decide)) ?_
    · rintro ⟨inside, rest, h⟩
      cases h
    refine .reference (show '\x7d' ∉ ("A:-5" : Text) by decide) ?_
    exact .other (by rintro ⟨inside, rest, h⟩; cases h) (fun _ => rfl) .nil
  exact ⟨hquiet, (expand_replaces_iff pricedTitle).2.2 (.inr hquiet)⟩

/-- A setting with two dollar signs in front of a reference with a default. -/
def doubledDollar : Text := "$$ $\x7bA:-x\x7d"

/-- One of the two dollar signs is lost. -/
theorem not_replaces_doubledDollar :
    (expand (fun _ => none) doubledDollar).toOption = some ("$ x" : Text) ∧
      ¬ Replaces (fun _ => none) doubledDollar "$ x" := by
  refine ⟨by decide +kernel, fun h => ?_⟩
  obtain ⟨t, ht, hout⟩ := (replaces_cons_iff (not_beginsReference_of_ne (by decide))).1 h
  obtain ⟨-, rfl⟩ := List.cons.inj hout
  obtain ⟨u, -, hu⟩ := (replaces_cons_iff (not_beginsReference_of_ne (by decide))).1 ht
  cases hu

end Galley.Expansion
