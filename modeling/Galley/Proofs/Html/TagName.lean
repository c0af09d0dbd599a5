import Galley.Proofs.Html.Nesting

/-!
# Tags read by their names

`visibleTags?` takes attributes in one form only. The reader here takes them in any form: it reads
the name of a tag and no more, which is all that nesting depends on. It reads every page that
`visibleTags?` reads, and finds the same names (`namedTags?_of_visibleTags?`).
-/

namespace Galley.Html

/-! ## The reader -/

/-- Whether a name that stands before `s` ends there. -/
def endsName (s : Text) : Bool := s.isEmpty || Text.hasPrefix " " s

def Tag.ofName? : Text → Option Tag
  | '/' :: name => if isName name then some (.stop name) else none
  | s =>
    let name := s.takeWhile isNameChar
    if name.isEmpty then none
    else if endsName (s.dropWhile isNameChar) then some (.start name []) else none

def Tag.bare (t : Tag) : Tag := { t with attributes := [] }

/-- The tags of what stands between two brackets: one, or none in a comment. -/
def namesOf? (body : Text) : Option (List Tag) :=
  match Text.dropPrefix? "!--" body with
  | some rest => if Text.hasSuffix "--" rest then some [] else none
  | none => (Tag.ofName? body).map ([·])

/-- Reads the rest of a page, inside a tag of which some was read or outside of tags. -/
def namesFrom : Option Text → Text → Option (List Tag)
  | none, [] => some []
  | none, c :: s =>
    if c = '<' then namesFrom (some []) s
    else if c = '>' then none
    else namesFrom none s
  | some _, [] => none
  | some body, c :: s =>
    if c = '<' then none
    else if c = '>' then (namesOf? body).bind fun ts => (namesFrom none s).map (ts ++ ·)
    else namesFrom (some (body ++ [c])) s

/-- The tags of a page, beside comments, with their names only. -/
def namedTags? (s : Text) : Option (List Tag) := namesFrom none s

/-- Whether the tags of a page are nested, whatever form their attributes have. -/
def isNestedByName (html : Text) : Bool :=
  (namedTags? html).any fun ts => openAfter? ts [] = some []

example : isNestedByName "<p class='a'>b</p>" = true ∧ isNested "<p class='a'>b</p>" = false := by
  decide

/-! ## Texts put together -/

theorem namesFrom_append {inside : Option Text} {a : Text} {ts : List Tag}
    (h : namesFrom inside a = some ts) (b : Text) :
    namesFrom inside (a ++ b) = (namesFrom none b).map (ts ++ ·) := by
  fun_induction namesFrom inside a generalizing ts with
  | case1 =>
    obtain rfl := Option.some.inj h
    exact (congrFun Option.map_id _).symm
  | case2 s ih => exact ih h
  | case3 => cases h
  | case4 c s hlt hgt ih =>
    rw [List.cons_append, namesFrom, if_neg hlt, if_neg hgt]
    exact ih h
  | case5 => cases h
  | case6 => cases h
  | case7 body s hne ih =>
    obtain ⟨us, hus, h⟩ := Option.bind_eq_some_iff.1 h
    obtain ⟨vs, hvs, rfl⟩ := Option.map_eq_some_iff.1 h
    rw [List.cons_append, namesFrom, if_neg hne, if_pos rfl, hus, Option.bind_some, ih hvs,
      Option.map_map]
    congr 1
    funext ws
    exact (List.append_assoc ..).symm
  | case8 body c s hlt hgt ih =>
    rw [List.cons_append, namesFrom, if_neg hlt, if_neg hgt]
    exact ih h

theorem namedTags?_append {a b : Text} {ts us : List Tag} (ha : namedTags? a = some ts)
    (hb : namedTags? b = some us) : namedTags? (a ++ b) = some (ts ++ us) := by
  have happend := namesFrom_append ha b
  rwa [show namesFrom none b = some us from hb] at happend

theorem namesFrom_plain {a : Text} (ha : isPlain a = true) (b s : Text) :
    namesFrom (some b) (a ++ '>' :: s) =
      (namesOf? (b ++ a)).bind fun ts => (namesFrom none s).map (ts ++ ·) := by
  induction a generalizing b with
  | nil => simp [namesFrom]
  | cons c a ih =>
    obtain ⟨⟨hlt, hgt⟩, ha⟩ : (c ≠ '<' ∧ c ≠ '>') ∧ isPlain a = true := by
      simpa [isBracket] using ha
    rw [List.cons_append, namesFrom, if_neg hlt, if_neg hgt, ih ha, List.append_assoc]
    rfl

theorem namedTags?_bracketed {body : Text} (h : isPlain body = true) :
    namedTags? ('<' :: (body ++ ['>'])) = namesOf? body := by
  show namesFrom (some []) (body ++ ['>']) = _
  rw [namesFrom_plain h, List.nil_append]
  cases namesOf? body <;> simp [namesFrom]

/-! ## Pages that can be read -/

theorem ofName?_of_ofBody? {body : Text} {t : Tag} (h : Tag.ofBody? body = some t) :
    Tag.ofName? body = some t.bare := by
  unfold Tag.ofBody? at h
  unfold Tag.ofName?
  split at h
  · split at h
    · next hname =>
      obtain rfl := Option.some.inj h
      exact if_pos hname
    · cases h
  · simp only at h
    split at h
    · cases h
    · next hne =>
      obtain ⟨as, has, rfl⟩ := Option.map_eq_some_iff.1 h
      obtain ⟨hrest, -⟩ := Attribute.list?_eq_some_iff.1 has
      have hends : endsName (Attribute.sources as) = true := by
        cases as with
        | nil => rfl
        | cons a as =>
          obtain ⟨s, hs⟩ := a.source_eq_cons
          rw [Attribute.sources_cons, hs]
          rfl
      simp only
      rw [if_neg hne, hrest, if_pos hends]
      rfl

theorem namesOf?_of_ofBody? {body : Text} {p : Part} (h : Part.ofBody? body = some p) :
    namesOf? body = some (p.tag?.toList.map Tag.bare) := by
  cases hprefix : Text.dropPrefix? "!--" body with
  | some rest =>
    rw [Part.ofBody?, hprefix] at h
    obtain ⟨u, hu, rfl⟩ := Option.map_eq_some_iff.1 h
    have hsuffix : Text.hasSuffix "--" rest = true := by rw [Text.hasSuffix, hu]; rfl
    rw [namesOf?, hprefix]
    exact if_pos hsuffix
  | none =>
    rw [Part.ofBody?, hprefix] at h
    obtain ⟨t, ht, rfl⟩ := Option.map_eq_some_iff.1 h
    rw [namesOf?, hprefix]
    show (Tag.ofName? body).map _ = _
    rw [ofName?_of_ofBody? ht]
    rfl

theorem namesFrom_of_readFrom {inside : Option Text} {s : Text} {ps : List Part}
    (h : Part.readFrom inside s = some ps) :
    namesFrom inside s = some ((ps.filterMap Part.tag?).map Tag.bare) := by
  fun_induction Part.readFrom inside s generalizing ps with
  | case1 =>
    obtain rfl := Option.some.inj h
    rfl
  | case2 s ih => exact ih h
  | case3 => cases h
  | case4 c s hlt hgt ih =>
    obtain ⟨qs, hqs, rfl⟩ := Option.map_eq_some_iff.1 h
    rw [namesFrom, if_neg hlt, if_neg hgt, ih hqs]
    rfl
  | case5 => cases h
  | case6 => cases h
  | case7 body s hne ih =>
    obtain ⟨p, hp, h⟩ := Option.bind_eq_some_iff.1 h
    obtain ⟨qs, hqs, rfl⟩ := Option.map_eq_some_iff.1 h
    rw [namesFrom, if_neg hne, if_pos rfl, namesOf?_of_ofBody? hp, Option.bind_some, ih hqs]
    cases p <;> rfl
  | case8 body c s hlt hgt ih =>
    rw [namesFrom, if_neg hlt, if_neg hgt]
    exact ih h

theorem namedTags?_of_visibleTags? {html : Text} {ts : List Tag} (h : visibleTags? html = some ts) :
    namedTags? html = some (ts.map Tag.bare) := by
  obtain ⟨ps, rfl, hps, rfl⟩ := visibleTags?_eq_some_iff.1 h
  exact namesFrom_of_readFrom (parts?_eq_some_iff.2 ⟨rfl, hps⟩)

/-! ## Nesting -/

theorem openAfter?_map_bare (ts : List Tag) (opened : List Text) :
    openAfter? (ts.map Tag.bare) opened = openAfter? ts opened := by
  induction ts generalizing opened with
  | nil => rfl
  | cons t ts ih =>
    show (t.after? opened).bind (openAfter? (ts.map Tag.bare)) = _
    rw [funext ih]
    rfl

theorem isNestedByName_of_isNested {html : Text} (h : isNested html = true) :
    isNestedByName html = true := by
  obtain ⟨ts, hts, hopen⟩ := (Option.any_eq_true _ _).1 h
  rw [isNestedByName, namedTags?_of_visibleTags? hts, Option.any_some, openAfter?_map_bare]
  exact hopen

end Galley.Html
