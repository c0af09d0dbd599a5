import Galley.Proofs.Html.Comment

/-!
# Brackets of a page

Every bracket of a page belongs to one of its pieces: a `<` starts it and a `>` ends it. So a tag
whose text stands somewhere in a page is one of the tags of the page (`mem_of_isInfix`).
-/

namespace Galley.Html

/-! ## Where brackets stand -/

theorem exists_append_of_isPlain {u : Text} (hu : isPlain u = true) {y a c : Text} {b : Char}
    (hb : isBracket b = true) (h : u ++ y = a ++ b :: c) : ∃ d, a = u ++ d ∧ y = d ++ b :: c := by
  rcases List.append_eq_append_iff.1 h with ⟨d, rfl, hy⟩ | ⟨d, rfl, hc⟩
  · exact ⟨d, rfl, hy⟩
  · cases d with
    | nil => exact ⟨[], by simp, hc.symm⟩
    | cons e d =>
      obtain ⟨rfl, -⟩ := List.cons.inj hc
      rw [isPlain_append, isPlain_cons, hb] at hu
      simp at hu

theorem exists_append_of_isPlain_end {u : Text} (hu : isPlain u = true) {y a c : Text} {b : Char}
    (hb : isBracket b = true) (h : y ++ u = a ++ b :: c) : ∃ d, c = d ++ u := by
  have hmem := not_mem_of_isPlain hu hb
  rcases List.append_eq_append_iff.1 h with ⟨d, -, rfl⟩ | ⟨d, -, hc⟩
  · exact absurd (List.mem_append_right d List.mem_cons_self) hmem
  · cases d with
    | nil =>
      rw [List.nil_append] at hc
      exact absurd (hc ▸ List.mem_cons_self) hmem
    | cons e d => exact ⟨d, (List.cons.inj hc).2⟩

/-- A bracket of a page stands in one of its pieces. -/
theorem Part.exists_piece_of_bracket {ps : List Part} {a c : Text} {b : Char}
    (hps : ps.all isSound = true) (hb : isBracket b = true) (h : sources ps = a ++ b :: c) :
    ∃ p ∈ ps, p.isPiece = true ∧ ∃ before d e after,
      p.source = d ++ b :: e ∧ a = before ++ d ∧ c = e ++ after := by
  induction ps generalizing a with
  | nil => simp at h
  | cons p ps ih =>
    obtain ⟨hp, hps⟩ : p.isSound = true ∧ ps.all isSound = true := by simpa using hps
    have hrest : ∀ d, sources ps = d ++ b :: c → a = p.source ++ d →
        ∃ p' ∈ p :: ps, p'.isPiece = true ∧ ∃ before d e after,
          p'.source = d ++ b :: e ∧ a = before ++ d ∧ c = e ++ after := by
      rintro d hd rfl
      obtain ⟨p', hp', hpiece, before, d', e, after, hsource, rfl, hc⟩ := ih hps hd
      refine ⟨p', List.mem_cons_of_mem p hp', hpiece, p.source ++ before, d', e, after, hsource, ?_, hc⟩
      exact (List.append_assoc ..).symm
    rw [sources_cons] at h
    rcases List.append_eq_append_iff.1 h with ⟨d, ha, hd⟩ | ⟨d, hsource, hd⟩
    · exact hrest d hd ha
    · cases d with
      | nil => exact hrest [] hd.symm (by rw [hsource, List.append_nil, List.append_nil])
      | cons f d =>
        obtain ⟨rfl, rfl⟩ := List.cons.inj hd
        have hpiece : p.isPiece = true := by
          cases p with
          | char g =>
            have hplain : isPlain [g] = true := by simpa [isSound] using hp
            have hmem : b ∈ [g] := by
              rw [show [g] = a ++ b :: d from hsource]
              exact List.mem_append_right a List.mem_cons_self
            exact absurd hmem (not_mem_of_isPlain hplain hb)
          | _ => rfl
        exact ⟨p, List.mem_cons_self, hpiece, [], a, d, sources ps, hsource, rfl, rfl⟩

section tags

variable {u a c : Text} {ts : List Tag}

theorem exists_tag_of_bracket (h : tags? u = some ts) {b : Char} (hb : isBracket b = true)
    (hu : u = a ++ b :: c) : ∃ t ∈ ts, ∃ before d e after,
      '<' :: (t.body ++ ['>']) = d ++ b :: e ∧ a = before ++ d ∧ c = e ++ after := by
  obtain ⟨ps, rfl, hps, hfilter⟩ := pieces?_eq_some_iff.1 (tags?_eq_some_iff.1 h)
  obtain ⟨p, hp, hpiece, before, d, e, after, hsource, ha, hc⟩ :=
    Part.exists_piece_of_bracket hps hb hu
  have hmem : p ∈ ts.map .tag := by
    rw [← hfilter]
    exact List.mem_filter.2 ⟨hp, hpiece⟩
  obtain ⟨t, ht, rfl⟩ := List.mem_map.1 hmem
  exact ⟨t, ht, before, d, e, after, hsource, ha, hc⟩

theorem not_mem_body (h : tags? u = some ts) {t : Tag} (ht : t ∈ ts) {b : Char}
    (hb : isBracket b = true) : b ∉ t.body :=
  not_mem_of_isPlain (t.isPlain_body (isSound_of_tags? h ht)) hb

theorem exists_tag_of_lt (h : tags? u = some ts) (hu : u = a ++ '<' :: c) :
    ∃ t ∈ ts, ∃ d, c = t.body ++ '>' :: d := by
  obtain ⟨t, ht, before, d, e, after, hsource, -, rfl⟩ := exists_tag_of_bracket h (by decide) hu
  refine ⟨t, ht, after, ?_⟩
  cases d with
  | nil =>
    rw [← (List.cons.inj hsource).2]
    simp
  | cons f d =>
    have hmem : '<' ∈ t.body ++ ['>'] := by
      rw [(List.cons.inj hsource).2]
      exact List.mem_append_right d List.mem_cons_self
    rcases List.mem_append.1 hmem with hmem | hmem
    · exact absurd hmem (not_mem_body h ht (by decide))
    · cases List.mem_singleton.1 hmem

theorem exists_tag_of_gt (h : tags? u = some ts) (hu : u = a ++ '>' :: c) :
    ∃ t ∈ ts, ∃ d, a = d ++ '<' :: t.body := by
  obtain ⟨t, ht, before, d, e, after, hsource, rfl, -⟩ := exists_tag_of_bracket h (by decide) hu
  refine ⟨t, ht, before, ?_⟩
  rcases List.eq_nil_or_concat e with rfl | ⟨e, f, rfl⟩
  · have hsource : '<' :: t.body ++ ['>'] = d ++ ['>'] := hsource
    rw [List.append_cancel_right hsource]
  · have hbody : '<' :: t.body = d ++ '>' :: e := by
      have hsource : '<' :: t.body ++ ['>'] = (d ++ '>' :: e) ++ [f] := by simpa using hsource
      exact (List.append_inj' hsource rfl).1
    have hmem : '>' ∈ '<' :: t.body := by
      rw [hbody]
      exact List.mem_append_right d List.mem_cons_self
    rcases List.mem_cons.1 hmem with hmem | hmem
    · cases hmem
    · exact absurd hmem (not_mem_body h ht (by decide))

end tags

/-- A tag or comment that stands in a page is one of its parts. -/
theorem Part.mem_of_isInfix {ps : List Part} (hps : ps.all isSound = true) {q : Part}
    (hq : q.isSound = true) (hpiece : q.isPiece = true) (hin : q.source <:+: sources ps) :
    q ∈ ps := by
  obtain ⟨inside, hinside, hreadInside, hqsource⟩ := exists_body_of_isPiece hq hpiece
  obtain ⟨a, c, hsources⟩ := hin
  have hstart : sources ps = a ++ '<' :: (inside ++ '>' :: c) := by
    rw [← hsources, hqsource]
    simp
  obtain ⟨p, hp, hppiece, before, d, e, after, hsource, -, hbehind⟩ :=
    exists_piece_of_bracket hps (by decide) hstart
  obtain ⟨body, hbody, hread, hpsource⟩ :=
    exists_body_of_isPiece (List.all_eq_true.1 hps p hp) hppiece
  rw [hpsource] at hsource
  obtain rfl : e = body ++ ['>'] := by
    cases d with
    | nil => exact (List.cons.inj hsource).2.symm
    | cons f d =>
      have hmem : '<' ∈ body ++ ['>'] := by
        rw [(List.cons.inj hsource).2]
        exact List.mem_append_right d List.mem_cons_self
      rcases List.mem_append.1 hmem with hmem | hmem
      · exact absurd hmem (not_mem_of_isPlain hbody (by decide))
      · exact absurd hmem (by decide)
  have hbehind : inside ++ '>' :: c = body ++ '>' :: after := by simpa using hbehind
  obtain rfl := eq_of_append_bracket hinside hbody hbehind
  rw [hreadInside] at hread
  obtain rfl := Option.some.inj hread
  exact hp

theorem mem_of_isInfix {html : Text} {ts : List Tag} (h : visibleTags? html = some ts) {t : Tag}
    (ht : t.isSound = true) (hin : (Part.tag t).source <:+: html) : t ∈ ts := by
  obtain ⟨ps, rfl, hps, rfl⟩ := visibleTags?_eq_some_iff.1 h
  exact List.mem_filterMap.2 ⟨.tag t, Part.mem_of_isInfix hps ht rfl hin, rfl⟩

end Galley.Html
