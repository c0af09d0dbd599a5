import Galley.Proofs.Html.Part
import Galley.Proofs.Text

/-!
# Pieces of a page

What stands between the brackets of a page, without the text around it. Pieces of texts put
together are the pieces of each in turn, and trimming keeps the pieces. The tags of a page are its
pieces if none of them is a comment; comments are not visible.
-/

namespace Galley.Html

/-- The pieces of a page, in order. -/
def pieces? (s : Text) : Option (List Part) := (parts? s).map (·.filter Part.isPiece)

/-- The tags of a page whose pieces are all tags. -/
def tags? (s : Text) : Option (List Tag) := (pieces? s).bind (·.mapM Part.tag?)

/-- The tags of a page, beside comments. -/
def visibleTags? (s : Text) : Option (List Tag) := (pieces? s).map (·.filterMap Part.tag?)

/-! ## Pieces -/

theorem pieces?_eq_some_iff {s : Text} {qs : List Part} : pieces? s = some qs ↔
    ∃ ps, s = Part.sources ps ∧ ps.all Part.isSound = true ∧ ps.filter Part.isPiece = qs := by
  simp only [pieces?, Option.map_eq_some_iff, parts?_eq_some_iff, and_assoc]

theorem pieces?_append {a b : Text} {ps qs : List Part} (ha : pieces? a = some ps)
    (hb : pieces? b = some qs) : pieces? (a ++ b) = some (ps ++ qs) := by
  obtain ⟨as, rfl, has, rfl⟩ := pieces?_eq_some_iff.1 ha
  obtain ⟨bs, rfl, hbs, rfl⟩ := pieces?_eq_some_iff.1 hb
  exact pieces?_eq_some_iff.2 ⟨as ++ bs, by simp, by simp [has, hbs], by simp⟩

theorem pieces?_source {p : Part} (h : p.isSound = true) (hpiece : p.isPiece = true) :
    pieces? p.source = some [p] :=
  pieces?_eq_some_iff.2 ⟨[p], by simp, by simpa using h, by simp [hpiece]⟩

theorem pieces?_plain_append {a : Text} (ha : isPlain a = true) (b : Text) :
    pieces? (a ++ b) = pieces? b := by
  induction a with
  | nil => rfl
  | cons c a ih =>
    rw [isPlain_cons, Bool.and_eq_true] at ha
    have hread : parts? (c :: (a ++ b)) = (parts? (a ++ b)).map (.char c :: ·) :=
      Part.readFrom_source (p := .char c) ha.1 (a ++ b)
    rw [List.cons_append, pieces?, hread, Option.map_map]
    exact ih ha.2

theorem pieces?_of_isPlain {s : Text} (h : isPlain s = true) : pieces? s = some [] := by
  have happend := pieces?_plain_append h []
  rwa [List.append_nil] at happend

theorem readFrom_some_of_isPlain {b : Text} (hb : isPlain b = true) (body : Text) :
    Part.readFrom (some body) b = none := by
  induction b generalizing body with
  | nil => rfl
  | cons c b ih =>
    obtain ⟨⟨hlt, hgt⟩, hb⟩ : (c ≠ '<' ∧ c ≠ '>') ∧ isPlain b = true := by
      simpa [isBracket] using hb
    rw [Part.readFrom, if_neg hlt, if_neg hgt]
    exact ih hb _

theorem pieces?_append_plain (a : Text) {b : Text} (hb : isPlain b = true) :
    pieces? (a ++ b) = pieces? a := by
  suffices hread : ∀ inside, (Part.readFrom inside (a ++ b)).map (·.filter Part.isPiece) =
      (Part.readFrom inside a).map (·.filter Part.isPiece) from hread none
  intro inside
  induction a generalizing inside with
  | nil =>
    cases inside with
    | none => exact pieces?_of_isPlain hb
    | some body => rw [List.nil_append, readFrom_some_of_isPlain hb]; rfl
  | cons c a ih =>
    cases inside with
    | none =>
      simp only [List.cons_append, Part.readFrom]
      split
      · exact ih _
      · split
        · rfl
        · rw [Option.map_map, Option.map_map]
          exact ih none
    | some body =>
      simp only [List.cons_append, Part.readFrom]
      split
      · rfl
      · split
        · cases Part.ofBody? body with
          | none => rfl
          | some p =>
            simp only [Option.bind_some, Option.map_map]
            cases p with
            | char _ => exact ih none
            | comment t =>
              have hmap := congrArg (Option.map (.comment t :: ·)) (ih none)
              rwa [Option.map_map, Option.map_map] at hmap
            | tag t =>
              have hmap := congrArg (Option.map (.tag t :: ·)) (ih none)
              rwa [Option.map_map, Option.map_map] at hmap
        · exact ih _

theorem isPlain_of_all_isBlank {s : Text} (h : s.all Text.isBlank = true) : isPlain s = true :=
  isPlain_of_all (by decide) (by decide) h

theorem pieces?_trimStart (s : Text) : pieces? (Text.trimStart s) = pieces? s := by
  have hplain : isPlain (s.takeWhile Text.isBlank) = true :=
    isPlain_of_all_isBlank List.all_takeWhile
  rw [← pieces?_plain_append hplain, Text.trimStart, List.takeWhile_append_dropWhile]

theorem pieces?_trimEnd (s : Text) : pieces? (Text.trimEnd s) = pieces? s := by
  obtain ⟨b, hb, hs⟩ := Text.exists_append_dropEndWhile Text.isBlank s
  calc pieces? (Text.trimEnd s)
    _ = pieces? (Text.trimEnd s ++ b) := (pieces?_append_plain _ (isPlain_of_all_isBlank hb)).symm
    _ = pieces? s := congrArg pieces? hs.symm

theorem pieces?_trim (s : Text) : pieces? (Text.trim s) = pieces? s := by
  rw [Text.trim, pieces?_trimEnd, pieces?_trimStart]

/-! ## Tags -/

theorem mapM_tag?_eq_some_iff {ps : List Part} {ts : List Tag} :
    ps.mapM Part.tag? = some ts ↔ ps = ts.map .tag := by
  induction ps generalizing ts with
  | nil => cases ts <;> simp
  | cons p ps ih =>
    cases p with
    | tag t =>
      simp only [List.mapM_cons, Part.tag?, Option.bind_eq_bind, Option.bind_some, Option.pure_def,
        Option.bind_eq_some_iff, ih, Option.some.injEq]
      constructor
      · rintro ⟨us, rfl, rfl⟩
        rfl
      · intro h
        obtain ⟨us, rfl⟩ : ∃ us, ts = t :: us := by
          cases ts with
          | nil => cases h
          | cons u us => exact ⟨us, by rw [Part.tag.inj (List.cons.inj h).1]⟩
        exact ⟨us, (List.cons.inj h).2, rfl⟩
    | char _ | comment _ => cases ts <;> simp [Part.tag?]

theorem tags?_eq_some_iff {s : Text} {ts : List Tag} :
    tags? s = some ts ↔ pieces? s = some (ts.map .tag) := by
  simp only [tags?, Option.bind_eq_some_iff, mapM_tag?_eq_some_iff]
  exact ⟨fun ⟨ps, hps, heq⟩ => heq ▸ hps, fun h => ⟨_, h, rfl⟩⟩

theorem tags?_append {a b : Text} {ts us : List Tag} (ha : tags? a = some ts)
    (hb : tags? b = some us) : tags? (a ++ b) = some (ts ++ us) := by
  rw [tags?_eq_some_iff] at ha hb ⊢
  rw [List.map_append]
  exact pieces?_append ha hb

theorem tags?_of_isPlain {s : Text} (h : isPlain s = true) : tags? s = some [] :=
  tags?_eq_some_iff.2 (pieces?_of_isPlain h)

theorem tags?_tag {t : Tag} (h : t.isSound = true) :
    tags? ('<' :: (t.body ++ ['>'])) = some [t] :=
  tags?_eq_some_iff.2 (pieces?_source (p := .tag t) h rfl)

theorem tags?_trim (s : Text) : tags? (Text.trim s) = tags? s := by
  rw [tags?, pieces?_trim, tags?]

theorem isSound_of_tags? {s : Text} {ts : List Tag} (h : tags? s = some ts) {t : Tag}
    (ht : t ∈ ts) : t.isSound = true := by
  obtain ⟨ps, -, hsound, hfilter⟩ := pieces?_eq_some_iff.1 (tags?_eq_some_iff.1 h)
  have hmem : Part.tag t ∈ ps.filter Part.isPiece := by
    rw [hfilter]
    exact List.mem_map_of_mem ht
  exact List.all_eq_true.1 hsound _ (List.mem_filter.1 hmem).1

/-! ## Visible tags -/

theorem visibleTags?_eq_some_iff {s : Text} {ts : List Tag} : visibleTags? s = some ts ↔
    ∃ ps, s = Part.sources ps ∧ ps.all Part.isSound = true ∧ ps.filterMap Part.tag? = ts := by
  have hfilter : ∀ ps : List Part, (ps.filter Part.isPiece).filterMap Part.tag? =
      ps.filterMap Part.tag? := by
    intro ps
    rw [List.filterMap_filter]
    congr
    funext p
    cases p <;> rfl
  simp only [visibleTags?, pieces?, Option.map_map, Option.map_eq_some_iff, parts?_eq_some_iff,
    Function.comp_def, hfilter, and_assoc]

theorem visibleTags?_of_tags? {s : Text} {ts : List Tag} (h : tags? s = some ts) :
    visibleTags? s = some ts := by
  have hfilter : (ts.map Part.tag).filterMap Part.tag? = ts := by
    rw [List.filterMap_map]
    exact List.filterMap_some
  rw [visibleTags?, tags?_eq_some_iff.1 h, Option.map_some, hfilter]

theorem visibleTags?_append {a b : Text} {ts us : List Tag} (ha : visibleTags? a = some ts)
    (hb : visibleTags? b = some us) : visibleTags? (a ++ b) = some (ts ++ us) := by
  obtain ⟨ps, hps, rfl⟩ := Option.map_eq_some_iff.1 ha
  obtain ⟨qs, hqs, rfl⟩ := Option.map_eq_some_iff.1 hb
  rw [visibleTags?, pieces?_append hps hqs, Option.map_some, List.filterMap_append]

theorem visibleTags?_comment {c : Text} (h : isPlain c = true) :
    visibleTags? (Part.comment c).source = some [] := by
  rw [visibleTags?, pieces?_source (by simpa [Part.isSound] using h) rfl]
  rfl

theorem visibleTags?_trim (s : Text) : visibleTags? (Text.trim s) = visibleTags? s := by
  rw [visibleTags?, pieces?_trim, visibleTags?]

/-! ## Properties of tags -/

/-- The text is that of tags that are all `Q`. -/
def Tagged (Q : Tag → Prop) (u : Text) : Prop := ∃ ts, tags? u = some ts ∧ ∀ t ∈ ts, Q t

namespace Tagged

variable {Q : Tag → Prop} {u v : Text}

theorem of_isPlain (h : isPlain u = true) : Tagged Q u :=
  ⟨[], tags?_of_isPlain h, fun _ ht => absurd ht List.not_mem_nil⟩

theorem nil : Tagged Q [] := of_isPlain rfl

theorem singleton {t : Tag} (h : tags? u = some [t]) (ht : Q t) : Tagged Q u :=
  ⟨[t], h, List.forall_mem_singleton.2 ht⟩

theorem append (hu : Tagged Q u) (hv : Tagged Q v) : Tagged Q (u ++ v) := by
  obtain ⟨ts, hts, hall⟩ := hu
  obtain ⟨us, hus, hall'⟩ := hv
  exact ⟨ts ++ us, tags?_append hts hus, List.forall_mem_append.2 ⟨hall, hall'⟩⟩

theorem trim (h : Tagged Q u) : Tagged Q (Text.trim u) := by
  obtain ⟨ts, hts, hall⟩ := h
  exact ⟨ts, (tags?_trim u).trans hts, hall⟩

end Tagged

end Galley.Html
