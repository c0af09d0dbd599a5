import Galley.Proofs.Document.LinkTarget

/-!
# Encoding link targets twice

Trimming a target can bring a quote to the `)` behind it. Then a title can end there, and the second
encoding reads links that the first one did not: a link whose title started in its own target, one
with a longer title, and one that begins at a bracket where there was none, with its title on a later
line. Only a link of the last kind (`Late`) has a target that was not encoded before, so the second
encoding changes nothing exactly if these targets need no encoding.
-/

namespace Galley.Document

open Text (isBlank)

/-! ## Encoding what is no link -/

theorem exists_of_encodeLinkTargets_eq_append {w s t : Text} (hw : '[' ∉ w)
    (h : encodeLinkTargets s = w ++ t) : ∃ t', s = w ++ t' ∧ t = encodeLinkTargets t' := by
  induction w generalizing s with
  | nil => exact ⟨s, rfl, h.symm⟩
  | cons c w ih =>
    rw [List.mem_cons, not_or] at hw
    induction s using Link.read_induction with
    | nil => cases h
    | link link rest hlink =>
      rw [encodeLinkTargets_source hlink] at h
      exact absurd (List.cons.inj h).1 hw.1
    | plain d s hplain =>
      rw [encodeLinkTargets_cons hplain] at h
      obtain ⟨rfl, htail⟩ := List.cons.inj h
      obtain ⟨t', rfl, ht⟩ := ih hw.2 htail
      exact ⟨t', rfl, ht⟩

namespace Link

variable {s r w z rest body title target t t' r' : Text} {link : Link}

theorem endsLine_encodeLinkTargets (h : EndsLine s) : EndsLine (encodeLinkTargets s) := by
  cases s with
  | nil => exact h
  | cons c s =>
    obtain rfl := h c rfl
    rw [encodeLinkTargets_cons_of_ne (by decide)]
    exact h

theorem encodeLinkTargets_append_of_afterBracket? (hw : '\n' ∉ w) (h : afterBracket? (w ++ s) = none) :
    encodeLinkTargets (w ++ s) = w ++ encodeLinkTargets s := by
  induction w with
  | nil => rfl
  | cons c w ih =>
    rw [List.mem_cons, not_or] at hw
    rw [List.cons_append, afterBracket?_cons, if_neg (Ne.symm hw.1), Option.or_eq_none_iff,
      Option.map_eq_none_iff] at h
    have hplain : atStart? (c :: (w ++ s)) = none := by
      by_cases hc : c = '['
      · subst hc
        exact Option.map_eq_none_iff.2 h.2
      · exact atStart?_of_ne hc _
    rw [List.cons_append, encodeLinkTargets_cons hplain, ih hw.2 h.2, List.cons_append]

theorem encodeLinkTargets_of_atStart? (h : atStart? ('[' :: s) = none) :
    encodeLinkTargets ('[' :: s) = '[' :: (lineRest s ++ encodeLinkTargets (lineEnd s)) := by
  have hafter : afterBracket? (lineRest s ++ lineEnd s) = none := by
    rw [lineRest_append_lineEnd]
    exact Option.map_eq_none_iff.1 h
  rw [encodeLinkTargets_cons h,
    ← encodeLinkTargets_append_of_afterBracket? (newline_not_mem_lineRest s) hafter,
    lineRest_append_lineEnd]

/-! ## The title of a link that is read again -/

theorem not_isInfix_append {a b : Char} {v : Text} (hw : ¬ [a, b] <:+: w) (hv : b ∉ v) :
    ¬ [a, b] <:+: w ++ v := by
  induction w with
  | nil =>
    rintro ⟨before, after, h⟩
    rw [List.nil_append] at h
    exact hv (h ▸ by simp)
  | cons c w ih =>
    rw [List.infix_cons_iff, not_or] at hw
    rw [List.cons_append, List.infix_cons_iff, not_or]
    refine ⟨?_, ih hw.2⟩
    intro hprefix
    obtain ⟨rfl, hnext⟩ := List.cons_prefix_cons.1 hprefix
    cases w with
    | nil => exact hv (hnext.subset List.mem_cons_self)
    | cons d w =>
      obtain ⟨rfl, -⟩ := List.cons_prefix_cons.1 hnext
      exact hw.1 (List.cons_prefix_cons.2 ⟨rfl, by simp⟩)

theorem rest_of_throughQuote?_title (htitle : title = [] ∨ IsTitle title)
    (hw : ¬ ['"', ')'] <:+: w) (h : throughQuote? (w ++ (title ++ ')' :: r)) = some (body, rest)) :
    rest = r ∨ ∃ b, throughQuote? r = some (b, rest) := by
  rcases htitle with rfl | ⟨blanks, inner, -, hblanks, hinner, rfl⟩
  · exact rest_of_throughQuote? hw h
  · have hparen : ')' ∉ blanks := not_mem_blanks (by decide) hblanks
    have hfree := not_isInfix_append hw hparen
    have hsplit : w ++ (blanks ++ '"' :: (inner ++ ['"']) ++ ')' :: r) =
        w ++ blanks ++ '"' :: (inner ++ '"' :: ')' :: r) := by simp
    rw [hsplit] at h
    generalize w ++ blanks = v at hfree h
    by_cases hline : '\n' ∈ v
    · obtain ⟨before, after, rfl, hbefore⟩ := List.eq_append_cons_of_mem hline
      have hnone : throughQuote? (before ++ '\n' :: after ++ '"' :: (inner ++ '"' :: ')' :: r)) = none := by
        rw [throughQuote?_eq_none_iff, List.append_assoc, lineRest_append hbefore (by simp [EndsLine])]
        exact fun hpart => hfree (hpart.trans (List.prefix_append _ _).isInfix)
      rw [hnone] at h
      cases h
    · have hquoted : v ++ '"' :: (inner ++ '"' :: ')' :: r) =
          (v ++ '"' :: inner) ++ '"' :: ')' :: r := by simp
      rw [hquoted, throughQuote?_quoted (by simp [hline, hinner])] at h
      cases hr : throughQuote? r with
      | none =>
        rw [hr] at h
        obtain ⟨-, rfl⟩ := Prod.mk.inj (Option.some.inj h)
        exact .inl rfl
      | some found =>
        rw [hr] at h
        obtain ⟨-, rfl⟩ := Prod.mk.inj (Option.some.inj h)
        exact .inr ⟨_, rfl⟩

/-! ## The target of a link that is read again -/

theorem paren_not_mem_target (hfirst : ∀ b, b ≠ [] → b <:+ target → ending? (b ++ z) = none) :
    ')' ∉ target := by
  intro hmem
  obtain ⟨before, after, rfl⟩ := List.append_of_mem hmem
  have hnone := hfirst (')' :: after) (by simp) (List.suffix_append _ _)
  rw [List.cons_append, ending?_eq_some_iff.2 (.inr ⟨rfl, rfl⟩)] at hnone
  cases hnone

theorem isBlank_getLast?_target (hend : title? z = some (title, rest))
    (hfirst : ∀ b, b ≠ [] → b <:+ target → ending? (b ++ z) = none) :
    ∀ c ∈ target.getLast?, isBlank c = false := by
  intro c hc
  obtain ⟨before, rfl⟩ := List.getLast?_eq_some_iff.1 hc
  cases hblank : isBlank c with
  | false => rfl
  | true =>
    obtain ⟨blanks, q, body, -, hblanks, rfl, hthrough, -⟩ := exists_of_title? hend
    have htitle := title?_blanks (List.cons_ne_nil c blanks)
      (List.forall_mem_cons.2 ⟨hblank, hblanks⟩) q
    have hnone := hfirst [c] (by simp) (List.suffix_append _ _)
    rw [hthrough] at htitle
    rw [show [c] ++ (blanks ++ '"' :: q) = c :: blanks ++ '"' :: q from rfl,
      ending?_eq_some_iff.2 (.inl htitle)] at hnone
    cases hnone

theorem exists_ending? (htitle : title = [] ∨ IsTitle title) (r : Text) :
    ∃ title' rest', ending? (title ++ ')' :: r) = some (title', rest') ∧
      (rest' = r ∨ IsTitle title ∧ ∃ b, throughQuote? r = some (b, rest')) := by
  rcases htitle with rfl | hshape
  · exact ⟨_, _, ending?_eq_some_iff.2 (.inr ⟨rfl, rfl⟩), .inl rfl⟩
  · have hread := title?_of_isTitle hshape r
    cases hr : throughQuote? r with
    | none =>
      rw [hr] at hread
      exact ⟨_, _, ending?_eq_some_iff.2 (.inl hread), .inl rfl⟩
    | some found =>
      rw [hr] at hread
      exact ⟨_, _, ending?_eq_some_iff.2 (.inl hread), .inr ⟨hshape, _, rfl⟩⟩

theorem throughQuote?_of_blank_quote {c : Char} (hc : isBlank c = true)
    (hquote : [c, '"'] <:+: target) (hline : '\n' ∉ target)
    (hfirst : ∀ b, b ≠ [] → b <:+ target → ending? (b ++ ')' :: rest) = none) :
    throughQuote? rest = none := by
  obtain ⟨before, after, rfl⟩ := hquote
  have hnone := hfirst (c :: '"' :: after) (by simp) ⟨before, by simp⟩
  have htitle := title?_blanks (List.cons_ne_nil c []) (by simpa using hc) (after ++ ')' :: rest)
  cases hthrough : throughQuote? (after ++ ')' :: rest) with
  | some found =>
    rw [hthrough] at htitle
    rw [show c :: '"' :: after ++ ')' :: rest = [c] ++ '"' :: (after ++ ')' :: rest) from rfl,
      ending?_eq_some_iff.2 (.inl htitle)] at hnone
    cases hnone
  | none =>
    refine throughQuote?_eq_none_of_append (w := after ++ [')']) ?_ (by simpa using hthrough)
    intro hmem
    refine hline (List.mem_append_right _ ?_)
    simpa using hmem

theorem blank_quote_of_encodeTarget {c : Char} (hc : isBlank c = true)
    (h : [c, '"'] <:+: encodeTarget target) : [c, '"'] <:+: target := by
  have hspace : ' ' ≠ c := by
    rintro rfl
    exact space_not_mem_encodeTarget target (h.subset List.mem_cons_self)
  have hother {d : Char} (hd : isBlank d = false) (hne : d ≠ '"') : d ∉ [c, '"'] := by
    intro hmem
    rcases List.mem_cons.1 hmem with rfl | hmem
    · rw [hd] at hc
      cases hc
    · exact hne (List.mem_singleton.1 hmem)
  refine isInfix_of_isInfix_encodeTarget (by simp) (by simp [hspace]) ?_ h
  exact List.forall_mem_cons.2 ⟨hother (by decide) (by decide), List.forall_mem_cons.2
    ⟨hother (by decide) (by decide), List.forall_mem_singleton.2 (hother (by decide) (by decide))⟩⟩

/-- A title can start in an encoded target only if it goes on to the end of the link, and further
only if no title could end there before. -/
theorem rest_of_title?_encodeTarget {again cut : Text} (hne : cut ≠ [])
    (hcut : encodeTarget target = again ++ cut) (hline : '\n' ∉ target)
    (hend : ending? (title ++ ')' :: rest) = some (title, rest))
    (hfirst : ∀ b, b ≠ [] → b <:+ target → ending? (b ++ (title ++ ')' :: rest)) = none)
    (h : title? (cut ++ (title ++ ')' :: r)) = some (t, r')) :
    r' = r ∨ throughQuote? rest = none ∧ ∃ b, throughQuote? r = some (b, r') := by
  obtain ⟨blanks, q, body, hblanksNe, hblanks, hthrough, -, ⟨q', rfl, rfl⟩ | ⟨more, rfl, -⟩⟩ :=
    title?_append_cases h
  · have htitle := title_cases hend
    have hfree : ¬ ['"', ')'] <:+: q' := by
      intro hpart
      refine paren_not_mem_target hfirst (mem_of_mem_encodeTarget (by decide) (hcut ▸ ?_))
      simp [hpart.subset (List.mem_cons_of_mem _ List.mem_cons_self)]
    refine (rest_of_throughQuote?_title (htitle.imp_right And.left) hfree hthrough).imp_right
      fun hlonger => ⟨?_, hlonger⟩
    rcases htitle with rfl | ⟨-, hrest⟩
    · obtain ⟨before, c, rfl⟩ := (List.eq_nil_or_concat blanks).resolve_left hblanksNe
      rw [List.concat_eq_append] at hblanks hcut
      have hc := hblanks c (by simp)
      have hquote : [c, '"'] <:+: encodeTarget target := ⟨again ++ before, q', by simp [hcut]⟩
      exact throughQuote?_of_blank_quote hc (blank_quote_of_encodeTarget hc hquote) hline hfirst
    · exact hrest
  · have htrimmed := hcut ▸ trimmed_encodeTarget target
    have hnil := htrimmed.eq_nil_of_isBlank (List.suffix_append again cut) fun c hc =>
      hblanks c (List.mem_append_left more hc)
    exact absurd hnil hne

/-- An encoded target ends where the target ended, or earlier, where a title starts in it. Either way
it needs no further encoding. The link ends where it ended, or later on the line if no title could end
there before. -/
theorem target?_encodeTarget
    (h : target? (target ++ (title ++ ')' :: rest)) = some (target, title, rest)) (r : Text) :
    ∃ again title' rest',
      target? (encodeTarget target ++ (title ++ ')' :: r)) = some (again, title', rest') ∧
      encodeTarget again = again ∧
      (rest' = r ∨ throughQuote? rest = none ∧ ∃ b, throughQuote? r = some (b, rest')) := by
  obtain ⟨hline, hend, hfirst⟩ := target?_append_iff.1 h
  have htitle := title_cases hend
  have hline' : '\n' ∉ encodeTarget target := fun hmem =>
    hline (mem_of_mem_encodeTarget (by decide) hmem)
  have htrimmed := trimmed_encodeTarget target
  -- Behind the whole encoded target the link can end, so it ends there or before.
  obtain ⟨titleHere, restHere, hhere, hrestHere⟩ := exists_ending? (htitle.imp_right And.left) r
  have hsome := Option.isSome_of_eq_some hhere
  obtain ⟨⟨again, title', rest'⟩, hagain⟩ := Option.isSome_iff_exists.1
    (isSome_target?_append hline' (isSome_target?_of_ending? hsome))
  obtain ⟨cut, hcut, hend', hfirst'⟩ := exists_of_target?_append hsome hagain
  refine ⟨again, title', rest', hagain, ?_⟩
  have hspace : ' ' ∉ again := fun hmem =>
    space_not_mem_encodeTarget target (hcut ▸ List.mem_append_left cut hmem)
  cases cut with
  | nil =>
    rw [List.append_nil] at hcut
    obtain ⟨-, rfl⟩ := Prod.mk.inj (Option.some.inj (hend'.symm.trans hhere))
    refine ⟨encodeTarget_eq_self (hcut ▸ htrimmed) hspace, hrestHere.imp_right ?_⟩
    rintro ⟨⟨blanks, inner, -, -, -, rfl⟩, hlonger⟩
    exact ⟨(htitle.resolve_left (by simp)).2, hlonger⟩
  | cons c cut =>
    -- The target has no `)`, so it is a title that ends it.
    have htitle' : title? (c :: cut ++ (title ++ ')' :: r)) = some (title', rest') := by
      refine (ending?_eq_some_iff.1 hend').resolve_right ?_
      rintro ⟨-, hclose⟩
      obtain ⟨rfl, -⟩ := List.cons.inj hclose
      exact paren_not_mem_target hfirst (mem_of_mem_encodeTarget (by decide) (hcut ▸ by simp))
    have hhead : ∀ d ∈ again.head?, isBlank d = false := by
      intro d hd
      refine htrimmed.head d ?_
      rw [hcut, List.head?_append, Option.mem_def.1 hd]
      rfl
    exact ⟨encodeTarget_eq_self ⟨hhead, isBlank_getLast?_target htitle' hfirst'⟩ hspace,
      rest_of_title?_encodeTarget (by simp) hcut hline hend hfirst htitle'⟩

/-! ## Reading a link again -/

/-- Behind an encoded link the second encoding goes on where the first one did, or later on the line if no
title could end there before. It leaves the link as it is. -/
theorem exists_atStart?_encoded (h : atStart? (link.source ++ rest) = some link) (r : Text) :
    ∃ again rest', link.encoded.source ++ r = again.source ++ rest' ∧
      atStart? (again.source ++ rest') = some again ∧ again.encoded = again ∧
      (rest' = r ∨ throughQuote? rest = none ∧ ∃ b, throughQuote? r = some (b, rest')) := by
  obtain ⟨hnewline, hfirst, htarget⟩ := atStart?_source_iff.1 h
  obtain ⟨again, title', rest', hagain, hsettled, hrest'⟩ := target?_encodeTarget htarget r
  have hsplit := (eq_of_target? hagain).1
  rw [List.append_assoc] at hsplit
  refine ⟨⟨link.text, again, title'⟩, rest', ?_, ?_, ?_, hrest'⟩
  · rw [source_append, source_append, encoded_eq]
    dsimp only
    rw [hsplit]
  · exact atStart?_source_iff.2 ⟨hnewline, hfirst, hsplit ▸ hagain⟩
  · rw [encoded_eq]
    dsimp only
    rw [hsettled]

/-! ## Late links -/

/-- A bracket of the markup that opens no link, but opens one once the targets behind it are encoded. Only
the first bracket on a line that opens none counts. -/
inductive Late : Text → Link → Prop
  | opening {s : Text} {link : Link} (hnone : atStart? s = none)
      (hlate : atStart? (encodeLinkTargets s) = some link) : Late s link
  | char {c : Char} {s : Text} {link : Link} (hc : c ≠ '[') (hrest : Late s link) : Late (c :: s) link
  | behind {s rest : Text} {found link : Link} (hfound : atStart? s = some found)
      (hs : s = found.source ++ rest) (hrest : Late rest link) : Late s link
  | line {s : Text} {link : Link} (hnone : atStart? ('[' :: s) = none) (hrest : Late (lineEnd s) link) :
      Late ('[' :: s) link

theorem not_late_nil : ¬ Late [] link := by
  intro h
  generalize hs : ([] : Text) = s at h
  cases h with
  | opening hnone hlate =>
    subst hs
    cases hlate
  | char => cases hs
  | behind hfound =>
    subst hs
    cases hfound
  | line => cases hs

theorem late_cons_iff {c : Char} (hc : c ≠ '[') : Late (c :: s) link ↔ Late s link := by
  refine ⟨fun h => ?_, .char hc⟩
  cases h with
  | opening hnone hlate =>
    rw [encodeLinkTargets_cons_of_ne hc, atStart?_of_ne hc] at hlate
    cases hlate
  | char _ hrest => exact hrest
  | behind hfound =>
    rw [atStart?_of_ne hc] at hfound
    cases hfound
  | line => exact absurd rfl hc

theorem late_append_iff (hw : '[' ∉ w) : Late (w ++ s) link ↔ Late s link := by
  induction w with
  | nil => rfl
  | cons c w ih =>
    rw [List.mem_cons, not_or] at hw
    rw [List.cons_append, late_cons_iff (Ne.symm hw.1), ih hw.2]

theorem late_source_iff {found : Link} (hfound : atStart? (found.source ++ rest) = some found) :
    Late (found.source ++ rest) link ↔ Late rest link := by
  refine ⟨fun h => ?_, .behind hfound rfl⟩
  generalize hs : found.source ++ rest = s at h hfound
  cases h with
  | opening hnone =>
    rw [hnone] at hfound
    cases hfound
  | char hc =>
    rw [atStart?_of_ne hc] at hfound
    cases hfound
  | behind hother hother_source hrest =>
    obtain rfl := Option.some.inj (hfound.symm.trans hother)
    rwa [List.append_cancel_left (hs.trans hother_source)]
  | line hnone =>
    rw [hnone] at hfound
    cases hfound

theorem late_opening_iff (hnone : atStart? ('[' :: s) = none) :
    Late ('[' :: s) link ↔
      atStart? (encodeLinkTargets ('[' :: s)) = some link ∨ Late (lineEnd s) link := by
  constructor
  · intro h
    generalize hs : '[' :: s = t at h hnone
    cases h with
    | opening _ hlate => exact .inl hlate
    | char hc => exact absurd (List.cons.inj hs).1.symm hc
    | behind hfound =>
      rw [hnone] at hfound
      cases hfound
    | line _ hrest =>
      obtain ⟨-, rfl⟩ := List.cons.inj hs
      exact .inr hrest
  · rintro (hlate | hrest)
    · exact .opening hnone hlate
    · exact .line hnone hrest

/-! ## Where a title ends once the links of its line are encoded -/

theorem rest_of_throughQuote?_encoded (hlink : atStart? (link.source ++ s) = some link)
    (hnone : throughQuote? (link.source ++ s) = none)
    (h : throughQuote? (link.encoded.source ++ r) = some (body, rest)) :
    rest = r ∨ throughQuote? s = none ∧ ∃ b, throughQuote? r = some (b, rest) := by
  obtain ⟨hnewline, -, htarget⟩ := atStart?_source_iff.1 hlink
  obtain ⟨hline, hend, hfirst⟩ := target?_append_iff.1 htarget
  have htitle := title_cases hend
  rw [source_append] at hnone
  have htext : ¬ ['"', ')'] <:+: '[' :: link.text :=
    not_isInfix_of_throughQuote? (by simpa using hnewline) hnone
  have hfree : ¬ ['"', ')'] <:+: ('[' :: link.text) ++ ']' :: '(' :: encodeTarget link.target := by
    rw [Text.isInfix_append_cons_iff (by decide), not_or]
    refine ⟨htext, fun hpart => ?_⟩
    have hparen : ')' ∈ encodeTarget link.target := by
      simpa using hpart.subset (List.mem_cons_of_mem _ List.mem_cons_self)
    exact paren_not_mem_target hfirst (mem_of_mem_encodeTarget (by decide) hparen)
  have hsplit : link.encoded.source ++ r =
      ('[' :: link.text) ++ ']' :: '(' :: encodeTarget link.target ++ (link.title ++ ')' :: r) := by
    rw [source_append, encoded_eq]
    simp
  refine (rest_of_throughQuote?_title (htitle.imp_right And.left) hfree (hsplit ▸ h)).imp_right
    fun hlonger => ⟨?_, hlonger⟩
  rcases htitle with htitle | ⟨-, hs⟩
  · rw [htitle] at hnone
    refine throughQuote?_eq_none_of_append
      (w := '[' :: (link.text ++ ']' :: '(' :: (link.target ++ [')']))) ?_ (by simpa using hnone)
    simp [hnewline, hline]
  · exact hs

/-- If a quote can end a title only once its line is encoded, then a target was trimmed there, and the
link goes on behind it. No late link is left out. -/
theorem exists_of_throughQuote?_encodeLinkTargets (hnone : throughQuote? s = none)
    (h : throughQuote? (encodeLinkTargets s) = some (body, rest)) :
    ∃ s', rest = encodeLinkTargets s' ∧ s' <:+ s ∧ ∀ link, Late s link ↔ Late s' link := by
  induction s using read_induction generalizing body with
  | nil => cases h
  | link found s hfound ih =>
    rw [encodeLinkTargets_source hfound] at h
    rcases rest_of_throughQuote?_encoded hfound hnone h with rfl | ⟨hs, b, hb⟩
    · exact ⟨s, rfl, List.suffix_append _ _, fun link => late_source_iff hfound⟩
    · obtain ⟨s', rfl, hsuffix, hlate⟩ := ih hs hb
      exact ⟨s', rfl, hsuffix.trans (List.suffix_append _ _),
        fun link => (late_source_iff hfound).trans (hlate link)⟩
  | plain c s hplain ih =>
    by_cases hopen : c = '['
    · -- The line is not changed behind a bracket that opens no link.
      subst hopen
      have hline : '\n' ∉ '[' :: lineRest s := by simpa using newline_not_mem_lineRest s
      rw [← lineRest_append_lineEnd s, ← List.cons_append, throughQuote?_eq_none_iff,
        lineRest_append hline (endsLine_lineEnd s)] at hnone
      rw [encodeLinkTargets_of_atStart? hplain, ← List.cons_append,
        throughQuote?_eq_none_iff.2 (by rwa [lineRest_append hline
          (endsLine_encodeLinkTargets (endsLine_lineEnd s))])] at h
      cases h
    · have hlate (s' : Text) (h : ∀ link, Late s link ↔ Late s' link) (link : Link) :
          Late (c :: s) link ↔ Late s' link := (late_cons_iff hopen).trans (h link)
      rw [encodeLinkTargets_cons hplain] at h
      by_cases hc : c = '\n'
      · rw [hc, throughQuote?_newline] at h
        cases h
      · have hs : throughQuote? s = none :=
          throughQuote?_eq_none_of_append (w := [c]) (by simpa using Ne.symm hc) hnone
        rw [throughQuote?_cons hc] at h
        cases hmore : throughQuote? (encodeLinkTargets s) with
        | some found =>
          rw [hmore] at h
          obtain ⟨-, rfl⟩ := Prod.mk.inj (Option.some.inj h)
          obtain ⟨s', hs', hsuffix, hsame⟩ := ih hs hmore
          exact ⟨s', hs', hsuffix.trans (List.suffix_cons c s), hlate s' hsame⟩
        | none =>
          rw [hmore] at h
          obtain ⟨after, hafter, -⟩ := Option.map_eq_some_iff.1 h
          obtain ⟨rfl, hclose⟩ := List.cons.inj (Text.dropPrefix?_eq_some_iff.1 hafter)
          obtain ⟨t, rfl, -⟩ := exists_of_encodeLinkTargets_eq_append (w := [')']) (by decide) hclose
          exact absurd ⟨[], [], rfl⟩ (not_isInfix_of_throughQuote? (w := ['"', ')']) (by decide) hnone)

/-! ## Where a late link stands -/

/-- A newline, then blanks and a quote: a title may start on a later line. -/
def HasQuotedLine (s : Text) : Prop :=
  ∃ blanks, (∀ c ∈ blanks, isBlank c = true) ∧ '\n' :: (blanks ++ ['"']) <:+: s

theorem HasQuotedLine.mono (h : HasQuotedLine s) (hs : s <:+: t) : HasQuotedLine t := by
  obtain ⟨blanks, hblanks, hpart⟩ := h
  exact ⟨blanks, hblanks, hpart.trans hs⟩

theorem exists_of_title?_encodeLinkTargets (hd : EndsLine d) (hw : '\n' ∉ w)
    (hnone : title? (w ++ d) = none) (h : title? (w ++ encodeLinkTargets d) = some (title, rest)) :
    HasQuotedLine d ∧
    ∃ s, rest = encodeLinkTargets s ∧ s <:+ d ∧ ∀ link, Late d link ↔ Late s link := by
  obtain ⟨blanks, q, body, hne, hblanks, hthrough, rfl, ⟨q', rfl, rfl⟩ | ⟨more, rfl, hmore⟩⟩ :=
    title?_append_cases h
  · -- A quote before the end of the line can end a title now only if it could before.
    have hq : '\n' ∉ q' := fun hmem => hw (by simp [hmem])
    rw [List.append_assoc, List.cons_append, title?_blanks hne hblanks, Option.map_eq_none_iff,
      throughQuote?_eq_none_iff, lineRest_append hq hd] at hnone
    rw [throughQuote?_eq_none_iff.2
      (by rwa [lineRest_append hq (endsLine_encodeLinkTargets hd)])] at hthrough
    cases hthrough
  · have hopen : '[' ∉ more ++ ['"'] := by
      have hblank := not_mem_blanks (c := '[') (by decide) hblanks
      intro hmem
      refine hblank (List.mem_append_right w ?_)
      simpa using hmem
    obtain ⟨q, rfl, rfl⟩ :=
      exists_of_encodeLinkTargets_eq_append (s := d) (t := q) hopen (by simp [hmore])
    rw [List.append_assoc, List.singleton_append, ← List.append_assoc, title?_blanks hne hblanks,
      Option.map_eq_none_iff] at hnone
    obtain ⟨s, hs, hsuffix, hlate⟩ := exists_of_throughQuote?_encodeLinkTargets hnone hthrough
    refine ⟨?_, s, hs, hsuffix.trans (List.suffix_append _ _),
      fun link => (late_append_iff hopen).trans (hlate link)⟩
    cases more with
    | nil => exact absurd (hd '"' rfl) (by decide)
    | cons c more =>
      obtain rfl := hd c rfl
      exact ⟨more, fun c hc => hblanks c (by simp [hc]), [], q, by simp⟩

theorem exists_line_of_late (hnone : atStart? ('[' :: s) = none)
    (hlate : atStart? (encodeLinkTargets ('[' :: s)) = some link) :
    ∃ w rest, lineRest s = link.text ++ ']' :: '(' :: (link.target ++ w) ∧
      ending? (w ++ lineEnd s) = none ∧
      ending? (w ++ encodeLinkTargets (lineEnd s)) = some (link.title, rest) := by
  have hd := endsLine_encodeLinkTargets (endsLine_lineEnd s)
  obtain ⟨t, rest, hs, hnewline, hfirst, htarget⟩ := atStart?_eq_some_iff.1 hlate
  rw [encodeLinkTargets_of_atStart? hnone] at hs
  obtain ⟨w, hw, rfl⟩ := exists_of_append_eq_append (w := link.text ++ [']', '(']) hd
    (by simp [hnewline]) (by simpa using (List.cons.inj hs).2)
  obtain ⟨z, hz, hline, hend, -⟩ := target?_eq_some_iff.1 htarget
  obtain ⟨w, rfl, rfl⟩ := exists_of_append_eq_append hd hline hz
  refine ⟨w, rest, by simp [hw], ?_, hend⟩
  rw [← Option.not_isSome_iff_eq_none]
  intro hsome
  -- Else the bracket would open a link with this text before the lines behind are encoded.
  obtain ⟨found, hfound⟩ := Option.isSome_iff_exists.1
    (isSome_target?_append hline (isSome_target?_of_ending? hsome))
  have hsource : s = link.text ++ ']' :: '(' :: (link.target ++ (w ++ lineEnd s)) := by
    conv => lhs; rw [← lineRest_append_lineEnd s, hw]
    simp
  have hstart : atStart? ('[' :: s) = some ⟨link.text, found.1, found.2.1⟩ :=
    atStart?_eq_some_iff.2 ⟨_, _, congrArg _ hsource, hnewline, hfirst, hfound⟩
  rw [hnone] at hstart
  cases hstart

/-- The second encoding goes on behind a late link with what the first one made of the rest. -/
theorem exists_of_late (hnone : atStart? ('[' :: s) = none)
    (hlate : atStart? (encodeLinkTargets ('[' :: s)) = some link) :
    HasQuotedLine (lineEnd s) ∧
    ∃ s', encodeLinkTargets ('[' :: s) = link.source ++ encodeLinkTargets s' ∧ s' <:+ s ∧
      ∀ other, Late (lineEnd s) other ↔ Late s' other := by
  have hd := endsLine_lineEnd s
  obtain ⟨w, rest, hline, hnoend, hend⟩ := exists_line_of_late hnone hlate
  have hw : '\n' ∉ w := by
    have hnewline := newline_not_mem_lineRest s
    rw [hline] at hnewline
    exact fun hmem => hnewline (by simp [hmem])
  have htitle : title? (w ++ encodeLinkTargets (lineEnd s)) = some (link.title, rest) := by
    refine (ending?_eq_some_iff.1 hend).resolve_right ?_
    rintro ⟨-, hclose⟩
    obtain ⟨w, rfl, -⟩ := exists_of_append_eq_append (w := [')']) (endsLine_encodeLinkTargets hd)
      (by decide) hclose
    rw [List.append_assoc, List.singleton_append, ending?_eq_some_iff.2 (.inr ⟨rfl, rfl⟩)] at hnoend
    cases hnoend
  obtain ⟨blanks, q, body, -, -, hsplit, hthrough, heq⟩ := exists_of_title? htitle
  obtain ⟨hquoted, s', rfl, hsuffix, hsame⟩ :=
    exists_of_title?_encodeLinkTargets hd hw (Option.or_eq_none_iff.1 hnoend).1 htitle
  refine ⟨hquoted, s', ?_, hsuffix.trans (List.dropWhile_suffix _), hsame⟩
  rw [encodeLinkTargets_of_atStart? hnone, source_append, hline, heq, List.append_assoc,
    List.cons_append, List.cons_append, List.append_assoc, hsplit, eq_of_throughQuote? hthrough]
  simp

/-! ## The blanks of the markup -/

theorem countP_encodeLinkTargets (markup : Text) :
    (encodeLinkTargets markup).countP isBlank ≤ markup.countP isBlank := by
  induction markup using read_induction with
  | nil => exact Nat.le_refl _
  | link link rest hlink ih =>
    rw [encodeLinkTargets_source hlink, List.countP_append, List.countP_append]
    exact Nat.add_le_add (countP_source link).1 ih
  | plain c s hplain ih =>
    rw [encodeLinkTargets_cons hplain, List.countP_cons, List.countP_cons]
    exact Nat.add_le_add_right ih _

theorem encodeLinkTargets_source_eq_iff (hlink : atStart? (link.source ++ s) = some link) :
    encodeLinkTargets (link.source ++ s) = link.source ++ s ↔
      link.encoded = link ∧ encodeLinkTargets s = s := by
  rw [encodeLinkTargets_source hlink]
  constructor
  · intro h
    obtain ⟨hle, hsame⟩ := countP_source link
    have hrest := countP_encodeLinkTargets s
    have hcount := congrArg (List.countP isBlank) h
    rw [List.countP_append, List.countP_append] at hcount
    have hlinkSame := hsame (by omega)
    rw [hlinkSame] at h
    exact ⟨hlinkSame, List.append_cancel_left h⟩
  · rintro ⟨hlinkSame, hs⟩
    rw [hlinkSame, hs]

/-! ## The second encoding -/

theorem hasQuotedLine_of_late (h : Late s link) : HasQuotedLine s := by
  induction h with
  | @opening s link hnone hlate =>
    cases s with
    | nil => cases hlate
    | cons c s =>
      by_cases hc : c = '['
      · subst hc
        exact (exists_of_late hnone hlate).1.mono
          ((List.dropWhile_suffix _).trans (List.suffix_cons _ s)).isInfix
      · rw [encodeLinkTargets_cons_of_ne hc, atStart?_of_ne hc] at hlate
        cases hlate
  | @char c s _ _ _ ih => exact ih.mono (List.suffix_cons c s).isInfix
  | behind _ hs _ ih => exact ih.mono (hs ▸ (List.suffix_append _ _).isInfix)
  | @line s _ _ _ ih => exact ih.mono ((List.dropWhile_suffix _).trans (List.suffix_cons _ s)).isInfix

/-- The second encoding reads a link where the first one did, and goes on with what the first one made of
the rest. -/
theorem exists_again (h : atStart? (link.source ++ rest) = some link) :
    ∃ again s, encodeLinkTargets (link.source ++ rest) = again.source ++ encodeLinkTargets s ∧
      atStart? (again.source ++ encodeLinkTargets s) = some again ∧ again.encoded = again ∧
      s <:+ rest ∧ ∀ other, Late rest other ↔ Late s other := by
  rw [encodeLinkTargets_source h]
  obtain ⟨again, rest', hsplit, hagain, hsettled, rfl | ⟨hnone, b, hb⟩⟩ :=
    exists_atStart?_encoded h (encodeLinkTargets rest)
  · exact ⟨again, rest, hsplit, hagain, hsettled, List.suffix_rfl, fun _ => Iff.rfl⟩
  · obtain ⟨s, rfl, hsuffix, hlate⟩ := exists_of_throughQuote?_encodeLinkTargets hnone hb
    exact ⟨again, s, hsplit, hagain, hsettled, hsuffix, hlate⟩

/-- A line whose first bracket opens no link, now or late, is done with the first encoding. -/
theorem encodeLinkTargets_line_eq_iff (hnone : atStart? ('[' :: s) = none)
    (hlate : atStart? (encodeLinkTargets ('[' :: s)) = none) :
    encodeLinkTargets (encodeLinkTargets ('[' :: s)) = encodeLinkTargets ('[' :: s) ↔
      encodeLinkTargets (encodeLinkTargets (lineEnd s)) = encodeLinkTargets (lineEnd s) := by
  rw [encodeLinkTargets_of_atStart? hnone] at hlate ⊢
  rw [encodeLinkTargets_cons hlate, List.cons_inj_right,
    encodeLinkTargets_append_of_afterBracket? (newline_not_mem_lineRest s)
      (Option.map_eq_none_iff.1 hlate),
    List.append_cancel_left_eq]

end Link

open Link

/-- A second encoding changes nothing exactly if every late link has a target that needs no encoding,
and so wherever no later line of the markup starts with blanks and a quote. -/
theorem encodeLinkTargets_twice (markup : Text) :
    (encodeLinkTargets (encodeLinkTargets markup) = encodeLinkTargets markup ↔
      ∀ link, Late markup link → link.encoded = link) ∧
    (¬ HasQuotedLine markup →
      encodeLinkTargets (encodeLinkTargets markup) = encodeLinkTargets markup) := by
  have hiff : encodeLinkTargets (encodeLinkTargets markup) = encodeLinkTargets markup ↔
      ∀ link, Late markup link → link.encoded = link := by
    -- The second encoding goes through the markup link by link and line by line; what it has not
    -- read yet is always what the first one made of a shorter markup with the same late links.
    induction hn : markup.length using Nat.strongRecOn generalizing markup with
    | ind n ih =>
      subst hn
      cases markup with
      | nil => exact iff_of_true rfl fun link h => absurd h not_late_nil
      | cons c s =>
        cases hstart : atStart? (c :: s) with
        | some found =>
          obtain ⟨-, rest, hrest⟩ := exists_of_atStart? hstart
          have hlength := congrArg List.length hrest
          have hpos := List.length_pos_iff.2 found.source_ne_nil
          rw [hrest] at hstart
          obtain ⟨again, t, hread, hagain, hsettled, hsuffix, hlate⟩ := exists_again hstart
          have hle := hsuffix.length_le
          rw [List.length_append] at hlength
          rw [hrest, hread, encodeLinkTargets_source_eq_iff hagain, and_iff_right hsettled,
            ih t.length (by omega) t rfl]
          simp only [late_source_iff hstart, hlate]
        | none =>
          by_cases hc : c = '['
          · subst hc
            simp only [late_opening_iff hstart, or_imp, forall_and]
            cases hlate : atStart? (encodeLinkTargets ('[' :: s)) with
            | some late =>
              obtain ⟨-, t, hread, hsuffix, hsame⟩ := exists_of_late hstart hlate
              have hshorter : t.length < ('[' :: s).length := Nat.lt_succ_of_le hsuffix.length_le
              rw [hread] at hlate ⊢
              rw [encodeLinkTargets_source_eq_iff hlate, ih t.length hshorter t rfl]
              simp [hsame]
            | none =>
              have hshorter : (lineEnd s).length < ('[' :: s).length :=
                Nat.lt_succ_of_le (List.dropWhile_suffix _).length_le
              rw [encodeLinkTargets_line_eq_iff hstart hlate, ih _ hshorter _ rfl]
              simp
          · rw [encodeLinkTargets_cons hstart, encodeLinkTargets_cons_of_ne hc, List.cons_inj_right,
              ih s.length (Nat.lt_succ_self _) s rfl]
            simp only [late_cons_iff hc]
  exact ⟨hiff, fun hquoted => hiff.2 fun link hlate => absurd (hasQuotedLine_of_late hlate) hquoted⟩

/-- Trimming the target on the second line makes a title end there. It opens the bracket on the first line,
whose target only the second encoding encodes. -/
theorem encodeLinkTargets_not_idempotent :
    encodeLinkTargets "[z](q r\n\"t [a](b\" )" = "[z](q r\n\"t [a](b\")" ∧
    encodeLinkTargets (encodeLinkTargets "[z](q r\n\"t [a](b\" )") = "[z](q%20r\n\"t [a](b\")" ∧
    encodeLinkTargets (encodeLinkTargets "[z](q r\n\"t [a](b\" )") ≠
      encodeLinkTargets "[z](q r\n\"t [a](b\" )" := by
  decide +kernel

end Galley.Document
