import Galley.Proofs.Html.Comment
import Galley.Proofs.Text.Split

/-!
# Pages cut at a tag

A page that is cut wherever one tag stands is cut between its parts: the pieces are pages again, and
their tags are the tags of the page cut at this tag (`visibleTags?_splitOn`). If the page is nested,
then all pieces are nested exactly if no element is open where the tag stands
(`forall_splitOnP_iff`).
-/

namespace Galley.Html

open Galley (Text)

/-! ## The tags of the pieces -/

section tags

variable {t : Tag}

theorem splitFrom_source (ht : t.isSound = true) {p : Part} (hp : p.isSound = true)
    (hne : p ≠ .tag t) (s : Text) : Text.splitFrom (Part.tag t).source 0 (p.source ++ s) =
      (Text.splitFrom (Part.tag t).source 0 s).modifyHead (p.source ++ ·) := by
  refine Text.splitFrom_append fun v hv hnil => ?_
  cases hpiece : p.isPiece with
  | true =>
    obtain ⟨body, hbody, hread, hsource⟩ := Part.exists_body_of_isPiece hp hpiece
    rw [hsource] at hv
    refine not_prefix_bracketed (t.isPlain_body ht) hbody (fun heq => ?_) hv hnil
    rw [← heq, Part.ofBody?_body ht] at hread
    exact hne (Option.some.inj hread).symm
  | false =>
    cases p with
    | char c =>
      rintro ⟨rest, hrest⟩
      obtain ⟨d, v, rfl⟩ := List.exists_cons_of_ne_nil hnil
      obtain ⟨rfl, -⟩ := List.cons.inj hrest
      obtain rfl : '<' = c := List.mem_singleton.1 (hv.subset List.mem_cons_self)
      exact absurd hp (by decide)
    | tag _ | comment _ => cases hpiece

theorem visibleTags?_source_append {p : Part} (hp : p.isSound = true) (s : Text) :
    visibleTags? (p.source ++ s) = (visibleTags? s).map (p.tag?.toList ++ ·) := by
  have hparts : parts? (p.source ++ s) = (parts? s).map (p :: ·) := Part.readFrom_source hp s
  simp only [visibleTags?, pieces?, hparts, Option.map_map]
  congr 1
  funext ps
  cases p <;> rfl

theorem splitOnP_tags_cons {p : Part} (hne : p ≠ .tag t) (ps : List Part) :
    ((p :: ps).filterMap Part.tag?).splitOnP (· = t) =
      ((ps.filterMap Part.tag?).splitOnP (· = t)).modifyHead (p.tag?.toList ++ ·) := by
  cases p with
  | tag u =>
    have hne : u ≠ t := fun heq => hne (congrArg Part.tag heq)
    simp [Part.tag?, List.splitOnP_cons_eq_if_modifyHead, hne]
  | char _ | comment _ => exact (congrFun List.modifyHead_id _).symm

theorem map_visibleTags?_modifyHead {p : Part} (hp : p.isSound = true) {pieces : List Text}
    {tags : List (List Tag)} (h : pieces.map visibleTags? = tags.map some) :
    (pieces.modifyHead (p.source ++ ·)).map visibleTags? =
      (tags.modifyHead (p.tag?.toList ++ ·)).map some := by
  cases pieces with
  | nil =>
    obtain rfl := List.map_eq_nil_iff.1 h.symm
    rfl
  | cons piece pieces =>
    cases tags with
    | nil => cases h
    | cons ts tags =>
      obtain ⟨hfirst, hrest⟩ := List.cons.inj h
      rw [List.modifyHead_cons, List.modifyHead_cons, List.map_cons, List.map_cons,
        visibleTags?_source_append hp, hfirst, hrest]
      rfl

/-- Cutting at a tag cuts the tags of the page. -/
theorem visibleTags?_splitOn (ht : t.isSound = true) {html : Text} {ts : List Tag}
    (h : visibleTags? html = some ts) :
    (Text.splitOn (Part.tag t).source html).map visibleTags? = (ts.splitOnP (· = t)).map some := by
  obtain ⟨ps, rfl, hps, rfl⟩ := visibleTags?_eq_some_iff.1 h
  clear h
  induction ps with
  | nil => rfl
  | cons p ps ih =>
    obtain ⟨hp, hps⟩ : p.isSound = true ∧ ps.all Part.isSound = true := by simpa using hps
    have ih := ih hps
    rw [Text.splitOn] at ih ⊢
    rw [Part.sources_cons]
    by_cases hcut : p = .tag t
    · subst hcut
      rw [Text.splitFrom_self (by simp [Part.source]), List.map_cons, ih]
      simp [Part.tag?, List.splitOnP_cons_eq_if_modifyHead]
      rfl
    · rw [splitFrom_source ht hp hcut, splitOnP_tags_cons hcut]
      exact map_visibleTags?_modifyHead hp ih

end tags

/-! ## Nested pieces -/

theorem forall_eq_append_cons_iff {α : Type} {P : List α → Prop} {t u : α} {ts : List α} :
    (∀ as bs, u :: ts = as ++ t :: bs → P as) ↔
      (u = t → P []) ∧ ∀ as bs, ts = as ++ t :: bs → P (u :: as) := by
  constructor
  · intro h
    refine ⟨?_, ?_⟩
    · rintro rfl
      exact h [] ts rfl
    · rintro as bs rfl
      exact h (u :: as) bs rfl
  · rintro ⟨hfirst, hbehind⟩ as bs heq
    cases as with
    | nil => exact hfirst (List.cons.inj heq).1
    | cons a as =>
      obtain ⟨rfl, hts⟩ := List.cons.inj heq
      exact hbehind as bs hts

/-- The induction on the tags goes on inside the elements that the first piece leaves open. -/
theorem openAfter?_splitOnP_iff {t : Tag} (hvoid : ∀ opened, t.after? opened = some opened)
    {ts seg : List Tag} {segs : List (List Tag)} {opened : List Text}
    (h : ts.splitOnP (· = t) = seg :: segs) :
    (openAfter? seg opened = some [] ∧ ∀ seg' ∈ segs, openAfter? seg' [] = some []) ↔
      openAfter? ts opened = some [] ∧
        ∀ as bs, ts = as ++ t :: bs → openAfter? as opened = some [] := by
  induction ts generalizing seg segs opened with
  | nil =>
    obtain ⟨rfl, rfl⟩ := List.cons.inj h
    simp [openAfter?]
  | cons u ts ih =>
    obtain ⟨seg₁, segs₁, hsegs⟩ := List.exists_cons_of_ne_nil (List.splitOnP_ne_nil (· = t) ts)
    rw [List.splitOnP_cons_eq_if_modifyHead, hsegs] at h
    rw [forall_eq_append_cons_iff]
    by_cases hcut : u = t
    · subst hcut
      rw [if_pos (by simp)] at h
      obtain ⟨rfl, rfl⟩ := List.cons.inj h
      have hbehind := @ih seg₁ segs₁ [] hsegs
      rw [List.forall_mem_cons, hbehind]
      simp only [openAfter?, hvoid, Option.bind_some, Option.some.injEq, true_imp_iff]
      constructor
      · rintro ⟨rfl, hopen, has⟩
        exact ⟨hopen, rfl, has⟩
      · rintro ⟨hopen, rfl, has⟩
        exact ⟨rfl, hopen, has⟩
    · rw [if_neg (by simpa using hcut), List.modifyHead_cons] at h
      obtain ⟨rfl, rfl⟩ := List.cons.inj h
      simp only [openAfter?]
      cases hafter : u.after? opened with
      | none => simp
      | some inner =>
        simp only [Option.bind_some, ih hsegs]
        exact ⟨fun hall => ⟨hall.1, fun heq => absurd heq hcut, hall.2⟩,
          fun hall => ⟨hall.1, hall.2.2⟩⟩

/-- The pieces are nested exactly if no element is open where the tag stands. -/
theorem forall_splitOnP_iff {t : Tag} (hvoid : ∀ opened, t.after? opened = some opened)
    {ts : List Tag} (h : openAfter? ts [] = some []) :
    (∀ seg ∈ ts.splitOnP (· = t), openAfter? seg [] = some []) ↔
      ∀ as bs, ts = as ++ t :: bs → openAfter? as [] = some [] := by
  obtain ⟨seg, segs, hsegs⟩ := List.exists_cons_of_ne_nil (List.splitOnP_ne_nil (· = t) ts)
  rw [hsegs, List.forall_mem_cons, openAfter?_splitOnP_iff hvoid hsegs]
  exact and_iff_right h

/-- A page that is cut where a tag stands, with no element open there, is cut into nested pages. -/
theorem forall_isNested_splitOn_iff {t : Tag} (ht : t.isSound = true)
    (hvoid : ∀ opened, t.after? opened = some opened) {html : Text} {ts : List Tag}
    (h : visibleTags? html = some ts) (hnested : openAfter? ts [] = some []) :
    (∀ piece ∈ Text.splitOn (Part.tag t).source html, isNested piece = true) ↔
      ∀ as bs, ts = as ++ t :: bs → openAfter? as [] = some [] := by
  have hcut := visibleTags?_splitOn ht h
  rw [← forall_splitOnP_iff hvoid hnested]
  constructor
  · intro hall seg hseg
    have hmem : some seg ∈ (ts.splitOnP (· = t)).map some := List.mem_map_of_mem hseg
    rw [← hcut] at hmem
    obtain ⟨piece, hpiece, hread⟩ := List.mem_map.1 hmem
    simpa [isNested, hread] using hall piece hpiece
  · intro hall piece hpiece
    have hmem : visibleTags? piece ∈ (Text.splitOn (Part.tag t).source html).map visibleTags? :=
      List.mem_map_of_mem hpiece
    rw [hcut] at hmem
    obtain ⟨seg, hseg, hread⟩ := List.mem_map.1 hmem
    simp [isNested, ← hread, hall seg hseg]

end Galley.Html
