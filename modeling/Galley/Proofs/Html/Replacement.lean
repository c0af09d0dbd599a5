import Galley.Proofs.Html.Bracket
import Mathlib.Data.List.Basic

/-!
# Comments replaced at once

A table says which comment is to be replaced by which text. Replacing its comments one after the
other is replacing them all at once, from the left, if the replacements have no comments of their
own (`replaceComments_eq_replaceAll`). If the table has every comment of a page, what comes out has
tags only (`tagged_replaceComments`).
-/

namespace Galley

namespace Text

/-- Replaces the patterns of the table, from the left and without overlap, after `skip` characters
that belong to an occurrence already replaced. -/
def replaceAllFrom (table : List (Text × Text)) : Nat → Text → Text
  | _, [] => []
  | skip + 1, _ :: s => replaceAllFrom table skip s
  | 0, c :: s =>
    match table.find? fun entry => hasPrefix entry.1 (c :: s) with
    | some (p, r) => r ++ replaceAllFrom table (p.length - 1) s
    | none => c :: replaceAllFrom table 0 s

/-- Replaces every occurrence of a nonempty pattern of the table by the text beside it, from the
left and without overlap. What was put in is not searched again. -/
def replaceAll (table : List (Text × Text)) (s : Text) : Text := replaceAllFrom table 0 s

section

variable {table : List (Text × Text)} {u s : Text}

theorem replaceAllFrom_skip (u : Text) :
    replaceAllFrom table u.length (u ++ s) = replaceAllFrom table 0 s := by
  induction u with
  | nil => rfl
  | cons c u ih => exact ih

theorem replaceAllFrom_of_not_mem {c : Char} (htable : ∀ entry ∈ table, entry.1.head? = some c)
    (hu : c ∉ u) : replaceAllFrom table 0 (u ++ s) = u ++ replaceAllFrom table 0 s := by
  induction u with
  | nil => rfl
  | cons d u ih =>
    rw [List.mem_cons, not_or] at hu
    have hnone : table.find? (fun entry => hasPrefix entry.1 (d :: (u ++ s))) = none := by
      rw [List.find?_eq_none]
      intro entry hentry hfound
      obtain ⟨p, hp⟩ := List.head?_eq_some_iff.1 (htable entry hentry)
      obtain ⟨rest, hrest⟩ := hasPrefix_iff.1 hfound
      rw [hp] at hrest
      exact hu.1 (List.cons.inj hrest).1.symm
    rw [List.cons_append, replaceAllFrom, hnone]
    exact congrArg (d :: ·) (ih hu.2)

end

end Text

namespace Html

/-- Replaces the comments of the table one after the other. -/
def replaceComments (table : List (Text × Text)) (html : Text) : Text :=
  table.foldl (fun html entry => Text.replace (commentSource entry.1) entry.2 html) html

def commentSources (table : List (Text × Text)) : List (Text × Text) :=
  table.map fun entry => (commentSource entry.1, entry.2)

/-- What the table puts in the place of a part. -/
def Part.replaced (table : List (Text × Text)) (p : Part) : Text :=
  match table.find? fun entry => p = .comment entry.1 with
  | some entry => entry.2
  | none => p.source

/-- The text is made of tags. -/
abbrev OnlyTags (u : Text) : Prop := Tagged (fun _ => True) u

variable {table : List (Text × Text)}

theorem Part.replaced_cons (entry : Text × Text) (p : Part) : p.replaced (entry :: table) =
    if p = .comment entry.1 then entry.2 else p.replaced table := by
  unfold replaced
  rw [List.find?_cons]
  by_cases hcomment : p = .comment entry.1
  · rw [if_pos hcomment, decide_eq_true hcomment]
  · rw [if_neg hcomment, decide_eq_false hcomment]

theorem Part.replaced_of_ne {p : Part} (h : ∀ c, p ≠ .comment c) : p.replaced table = p.source := by
  have hnone : table.find? (fun entry => p = .comment entry.1) = none := by
    rw [List.find?_eq_none]
    exact fun entry _ hcomment => h entry.1 (of_decide_eq_true hcomment)
  rw [replaced, hnone]

theorem Part.exists_replaced_comment {entry : Text × Text} (hentry : entry ∈ table) :
    ∃ found ∈ table, found.1 = entry.1 ∧ (Part.comment entry.1).replaced table = found.2 := by
  have hfound : (table.find? fun e => Part.comment entry.1 = .comment e.1).isSome = true :=
    List.find?_isSome.2 ⟨entry, hentry, decide_eq_true rfl⟩
  obtain ⟨found, hfound⟩ := Option.isSome_iff_exists.1 hfound
  have hcomment : Part.comment entry.1 = .comment found.1 := by
    simpa using List.find?_some hfound
  exact ⟨found, List.mem_of_find?_eq_some hfound, (Part.comment.inj hcomment).symm, by
    rw [replaced, hfound]⟩

/-! ## At once -/

theorem exists_source_eq {p : Part} (hp : p.isSound = true) :
    ∃ c tail, p.source = c :: tail ∧ '<' ∉ tail := by
  cases p with
  | char c => exact ⟨c, [], rfl, List.not_mem_nil⟩
  | tag t =>
    have hbody := not_mem_of_isPlain (t.isPlain_body hp) (show isBracket '<' = true from rfl)
    exact ⟨'<', _, rfl, by simp [hbody]⟩
  | comment c =>
    have hbody := not_mem_of_isPlain (Part.isPlain_commentBody hp)
      (show isBracket '<' = true from rfl)
    exact ⟨'<', _, rfl, by simp [hbody]⟩

theorem hasPrefix_commentSource {c : Text} (hc : isPlain c = true) {p : Part}
    (hp : p.isSound = true) (s : Text) :
    Text.hasPrefix (commentSource c) (p.source ++ s) = decide (p = .comment c) := by
  rw [Bool.eq_iff_iff, Text.hasPrefix_iff, decide_eq_true_iff]
  constructor
  · rintro ⟨rest, hrest⟩
    cases hpiece : p.isPiece with
    | false =>
      cases p with
      | char d =>
        obtain ⟨rfl, -⟩ := List.cons.inj hrest
        exact absurd hp (by decide)
      | _ => cases hpiece
    | true =>
      obtain ⟨body, hbody, hread, hsource⟩ := Part.exists_body_of_isPiece hp hpiece
      have hbehind : body ++ '>' :: s = Part.commentBody c ++ '>' :: rest := by
        rw [hsource] at hrest
        simpa [Part.source] using hrest
      obtain rfl := eq_of_append_bracket hbody (Part.isPlain_commentBody hc) hbehind
      exact (Option.some.inj (hread.symm.trans (Part.ofBody?_commentBody c)))
  · rintro rfl
    exact ⟨s, rfl⟩

theorem find?_commentSources (htable : ∀ entry ∈ table, isPlain entry.1 = true) {p : Part}
    (hp : p.isSound = true) (s : Text) :
    (commentSources table).find? (fun entry => Text.hasPrefix entry.1 (p.source ++ s)) =
      (table.find? fun entry => p = .comment entry.1).map
        fun entry => (commentSource entry.1, entry.2) := by
  induction table with
  | nil => rfl
  | cons entry table ih =>
    rw [List.forall_mem_cons] at htable
    have hentry := hasPrefix_commentSource htable.1 hp s
    rw [commentSources, List.map_cons, List.find?_cons, List.find?_cons, hentry]
    split
    · rfl
    · exact ih htable.2

theorem replaceAll_sources (htable : ∀ entry ∈ table, isPlain entry.1 = true) {ps : List Part}
    (hps : ps.all Part.isSound = true) :
    Text.replaceAll (commentSources table) (Part.sources ps) = ps.flatMap (·.replaced table) := by
  have hhead : ∀ entry ∈ commentSources table, entry.1.head? = some '<' := by
    intro entry hentry
    obtain ⟨_, -, rfl⟩ := List.mem_map.1 hentry
    rfl
  unfold Text.replaceAll
  induction ps with
  | nil => rfl
  | cons p ps ih =>
    obtain ⟨hp, hps⟩ : p.isSound = true ∧ ps.all Part.isSound = true := by simpa using hps
    have hfind := find?_commentSources htable hp (Part.sources ps)
    obtain ⟨c, tail, hsource, htail⟩ := exists_source_eq hp
    rw [Part.sources_cons, List.flatMap_cons, ← ih hps, Part.replaced]
    rw [hsource, List.cons_append] at hfind ⊢
    rw [Text.replaceAllFrom, hfind]
    cases hentry : table.find? (fun entry => p = .comment entry.1) with
    | none => exact congrArg (c :: ·) (Text.replaceAllFrom_of_not_mem hhead htail)
    | some entry =>
      have hlength : (commentSource entry.1).length - 1 = tail.length := by
        have hcomment := List.find?_some hentry
        rw [decide_eq_true_iff] at hcomment
        rw [commentSource, ← hcomment, hsource]
        rfl
      exact congrArg (entry.2 ++ ·) (hlength ▸ Text.replaceAllFrom_skip tail)

/-! ## One after the other -/

theorem OnlyTags.exists_parts {u : Text} (h : OnlyTags u) : ∃ ps, u = Part.sources ps ∧
    ps.all Part.isSound = true ∧ ∀ c, Part.comment c ∉ ps := by
  obtain ⟨ts, hts, -⟩ := h
  obtain ⟨ps, rfl, hps, hfilter⟩ := pieces?_eq_some_iff.1 (tags?_eq_some_iff.1 hts)
  refine ⟨ps, rfl, hps, fun c hc => ?_⟩
  have hmem : Part.comment c ∈ ps.filter Part.isPiece := List.mem_filter.2 ⟨hc, rfl⟩
  rw [hfilter] at hmem
  obtain ⟨t, -, ht⟩ := List.mem_map.1 hmem
  cases ht

theorem replaceComments_sources (htable : ∀ entry ∈ table, isPlain entry.1 = true ∧ OnlyTags entry.2)
    {ps : List Part} (hps : ps.all Part.isSound = true) :
    replaceComments table (Part.sources ps) = ps.flatMap (·.replaced table) := by
  induction table generalizing ps with
  | nil => rfl
  | cons entry table ih =>
    rw [List.forall_mem_cons] at htable
    obtain ⟨qs, hqs, hsound, hcomments⟩ := htable.1.2.exists_parts
    -- the parts of the page after the first pass
    have hpass : Text.replace (commentSource entry.1) entry.2 (Part.sources ps) =
        Part.sources (ps.flatMap fun p => if p = .comment entry.1 then qs else [p]) := by
      rw [replace_sources htable.1.1 entry.2 hps, Part.sources, List.flatMap_assoc]
      refine List.flatMap_congr fun p _ => ?_
      split
      · exact hqs
      · simp
    have hall : (ps.flatMap fun p => if p = .comment entry.1 then qs else [p]).all Part.isSound =
        true := by
      rw [List.all_eq_true] at hps hsound ⊢
      intro q hq
      obtain ⟨p, hp, hq⟩ := List.mem_flatMap.1 hq
      split at hq
      · exact hsound q hq
      · exact List.mem_singleton.1 hq ▸ hps p hp
    rw [replaceComments, List.foldl_cons, hpass]
    refine (ih htable.2 hall).trans ?_
    rw [List.flatMap_assoc]
    refine List.flatMap_congr fun p _ => ?_
    rw [Part.replaced_cons]
    split
    · rw [hqs]
      exact List.flatMap_congr fun q hq => Part.replaced_of_ne fun c heq => hcomments c (heq ▸ hq)
    · exact List.flatMap_singleton _ p

/-- Replacing comments one after the other is replacing them at once. -/
theorem replaceComments_eq_replaceAll
    (htable : ∀ entry ∈ table, isPlain entry.1 = true ∧ OnlyTags entry.2) {html : Text}
    {ps : List Part} (h : pieces? html = some ps) :
    replaceComments table html = Text.replaceAll (commentSources table) html := by
  obtain ⟨qs, rfl, hqs, -⟩ := pieces?_eq_some_iff.1 h
  rw [replaceComments_sources htable hqs,
    replaceAll_sources (fun entry hentry => (htable entry hentry).1) hqs]

/-- What the table says of a comment of a page stands where the comment stood. -/
theorem infix_replaceComments (htable : ∀ entry ∈ table, isPlain entry.1 = true ∧ OnlyTags entry.2)
    (hnodup : (table.map (·.1)).Nodup) {html : Text} {ps : List Part} (h : pieces? html = some ps)
    {entry : Text × Text} (hentry : entry ∈ table) (hin : commentSource entry.1 <:+: html) :
    entry.2 <:+: replaceComments table html := by
  obtain ⟨qs, rfl, hqs, -⟩ := pieces?_eq_some_iff.1 h
  have hmem := Part.mem_of_isInfix (q := .comment entry.1) hqs (htable entry hentry).1 rfl hin
  obtain ⟨before, after, rfl⟩ := List.append_of_mem hmem
  obtain ⟨found, hfound, hname, hreplaced⟩ := Part.exists_replaced_comment hentry
  have hsame : found = entry := List.inj_on_of_nodup_map hnodup hfound hentry hname
  rw [replaceComments_sources htable hqs, List.flatMap_append, List.flatMap_cons, hreplaced, hsame]
  exact ⟨_, _, List.append_assoc ..⟩

/-! ## What is left -/

/-- The comments of the text are all `Q`. -/
def Commented (Q : Text → Prop) (u : Text) : Prop :=
  ∃ ps, pieces? u = some ps ∧ ∀ c, Part.comment c ∈ ps → Q c

namespace Commented

variable {Q Q' : Text → Prop} {u v : Text}

theorem of_onlyTags (h : OnlyTags u) : Commented Q u := by
  obtain ⟨ts, hts, -⟩ := h
  refine ⟨_, tags?_eq_some_iff.1 hts, fun c hc => ?_⟩
  obtain ⟨t, -, ht⟩ := List.mem_map.1 hc
  cases ht

theorem nil : Commented Q [] := of_onlyTags .nil

theorem append (hu : Commented Q u) (hv : Commented Q v) : Commented Q (u ++ v) := by
  obtain ⟨ps, hps, hall⟩ := hu
  obtain ⟨qs, hqs, hall'⟩ := hv
  refine ⟨ps ++ qs, pieces?_append hps hqs, fun c hc => ?_⟩
  exact (List.mem_append.1 hc).elim (hall c) (hall' c)

theorem trim (h : Commented Q u) : Commented Q (Text.trim u) := by
  obtain ⟨ps, hps, hall⟩ := h
  exact ⟨ps, (pieces?_trim u).trans hps, hall⟩

theorem mono (h : Commented Q u) (hQ : ∀ c, Q c → Q' c) : Commented Q' u := by
  obtain ⟨ps, hps, hall⟩ := h
  exact ⟨ps, hps, fun c hc => hQ c (hall c hc)⟩

theorem comment {c : Text} (hc : isPlain c = true) (hQ : Q c) : Commented Q (commentSource c) := by
  refine ⟨[.comment c], pieces?_source hc rfl, fun d hd => ?_⟩
  obtain rfl := Part.comment.inj (List.mem_singleton.1 hd)
  exact hQ

end Commented

/-- If the table has all comments of a page, what is left are tags. -/
theorem tagged_replaceComments
    (htable : ∀ entry ∈ table, isPlain entry.1 = true ∧ OnlyTags entry.2) {html : Text}
    (h : Commented (fun c => c ∈ table.map (·.1)) html) : OnlyTags (replaceComments table html) := by
  obtain ⟨ps, hps, hcomments⟩ := h
  obtain ⟨qs, rfl, hqs, rfl⟩ := pieces?_eq_some_iff.1 hps
  rw [replaceComments_sources htable hqs]
  clear hps
  induction qs with
  | nil => exact .nil
  | cons p qs ih =>
    obtain ⟨hp, hqs⟩ : p.isSound = true ∧ qs.all Part.isSound = true := by simpa using hqs
    have hrest := ih hqs fun c hc => hcomments c
      (List.mem_filter.2 ⟨List.mem_cons_of_mem p (List.mem_filter.1 hc).1, rfl⟩)
    rw [List.flatMap_cons]
    refine Tagged.append ?_ hrest
    cases p with
    | char d =>
      rw [Part.replaced_of_ne (by simp)]
      have hplain : isPlain [d] = true := by simpa [Part.isSound] using hp
      exact .of_isPlain hplain
    | tag t =>
      rw [Part.replaced_of_ne (by simp)]
      exact .singleton (tags?_tag hp) trivial
    | comment c =>
      obtain ⟨entry, hentry, rfl⟩ := List.mem_map.1
        (hcomments c (List.mem_filter.2 ⟨List.mem_cons_self, rfl⟩))
      obtain ⟨found, hfound, -, hreplaced⟩ := Part.exists_replaced_comment hentry
      rw [hreplaced]
      exact (htable found hfound).2

theorem OnlyTags.hasInfix_eq_false {u : Text} (h : OnlyTags u) (s : Text) :
    Text.hasInfix ("<!" ++ s) u = false := by
  obtain ⟨ts, hts, -⟩ := h
  by_contra hfound
  rw [Bool.not_eq_false] at hfound
  obtain ⟨a, b, hu⟩ := Text.hasInfix_iff.1 hfound
  have hstart : u = a ++ '<' :: ('!' :: (s ++ b)) := by
    rw [← hu]
    simp
  obtain ⟨t, ht, d, hbody⟩ := exists_tag_of_lt hts hstart
  obtain ⟨c, body, heq, hc⟩ := t.body_eq_cons (isSound_of_tags? hts ht)
  rw [heq] at hbody
  exact hc (List.cons.inj hbody).1.symm

end Html

end Galley
