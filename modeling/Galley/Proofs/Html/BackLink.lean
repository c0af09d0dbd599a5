import Galley.Proofs.Html.Bracket
import Galley.Proofs.Html.Element

/-!
# Links back

The link from a footnote back to its reference is known by the start of its address and by its class.
In a page every `<` starts a tag and every `>` ends one, so the patterns that search for such links
find nothing in a text whose tags are no links back (`Unlinked`), and the search goes on behind it.
-/

namespace Galley.Html

/-! ## Links back -/

def Attribute.isBackLink (a : Attribute) : Bool :=
  a.key = "href" && a.value.any (Text.hasPrefix "#fnref-") ||
    Text.hasSuffix "class" a.key && a.value = some "footnote-backref".toList

def Tag.isBackLink (t : Tag) : Bool := t.attributes.any Attribute.isBackLink

namespace Attribute

theorem exists_of_readFrom_value {key v s : Text} {as : List Attribute}
    (h : readFrom (.value key v) s = some as) :
    ∃ w bs, as = ⟨key, some (v ++ w)⟩ :: bs := by
  induction s generalizing v with
  | nil => cases h
  | cons c s ih =>
    rw [readFrom] at h
    split at h
    · obtain ⟨w, bs, rfl⟩ := ih h
      exact ⟨c :: w, bs, by simp⟩
    · split at h
      · obtain ⟨bs, -, rfl⟩ := Option.map_eq_some_iff.1 h
        exact ⟨[], bs, by simp⟩
      · cases h

theorem isBackLink_of_source_end {a : Attribute} (ha : a.isSound = true) {x before : Text}
    (h : x ++ a.source = before ++ "class=\"footnote-backref\"") : a.isBackLink = true := by
  obtain ⟨hne, hkey, hvalue⟩ := isSound_iff.1 ha
  rw [List.all_eq_true] at hkey
  obtain ⟨key, value⟩ := a
  have hclass : "class=\"footnote-backref\"".toList =
      "class=".toList ++ '"' :: "footnote-backref".toList ++ ['"'] := by decide
  rw [hclass, ← List.append_assoc] at h
  cases value with
  | none =>
    have hlast : key = key.dropLast ++ [key.getLast hne] := (List.dropLast_concat_getLast hne).symm
    have hsource : x ++ (⟨key, none⟩ : Attribute).source =
        x ++ ' ' :: key.dropLast ++ [key.getLast hne] := by
      rw [List.append_assoc, List.cons_append, ← hlast]
      rfl
    rw [hsource] at h
    have hquote := (List.cons.inj (List.append_inj' h rfl).2).1
    exact absurd (hkey _ (List.getLast_mem hne)) (by rw [hquote]; decide)
  | some v =>
    have hsource : x ++ (⟨key, some v⟩ : Attribute).source =
        x ++ ' ' :: key ++ ['='] ++ '"' :: v ++ ['"'] := by
      simp [source]
    have hv : '"' ∉ v := by
      intro hmem
      exact absurd (List.all_eq_true.1 (hvalue v rfl) _ hmem) (by decide)
    rw [hsource, ← List.append_assoc] at h
    obtain ⟨hfront, rfl⟩ := Text.eq_of_append_cons_eq hv (by decide) (List.append_cancel_right h)
    have hequals : "class=".toList = "class".toList ++ ['='] := by decide
    rw [hequals, ← List.append_assoc before] at hfront
    have hkeys : (x ++ [' ']) ++ key = before ++ "class" := by
      simpa using List.append_cancel_right hfront
    have hsuffix : Text.hasSuffix "class" key = true := by
      refine Text.hasSuffix_iff.2 ?_
      rcases List.append_eq_append_iff.1 hkeys with ⟨d, -, hd⟩ | ⟨d, hd, hd'⟩
      · exact ⟨d, hd⟩
      · by_cases hnil : d = []
        · subst hnil
          exact ⟨[], hd'.symm⟩
        · rw [← List.dropLast_concat_getLast hnil, ← List.append_assoc] at hd
          have hlast := (List.cons.inj (List.append_inj' hd rfl).2).1
          have hblank : ' ' ∈ "class".toList := by
            rw [hd', hlast]
            exact List.mem_append_left _ (List.getLast_mem hnil)
          exact absurd hblank (by decide)
    show (_ || Text.hasSuffix "class" key && _) = true
    rw [hsuffix]
    simp

end Attribute

namespace Tag

variable {t : Tag}

theorem isBackLink_of_body_start (ht : t.isSound = true) {rest : Text}
    (h : t.body = "a href=\"#fnref-" ++ rest) : t.isBackLink = true := by
  have hread := ofBody?_body ht
  have hvalue : ofBody? t.body =
      (Attribute.readFrom (.value "href" "#fnref-") rest).map (.start "a") := by
    rw [h]
    rfl
  rw [hvalue] at hread
  obtain ⟨as, has, rfl⟩ := Option.map_eq_some_iff.1 hread
  obtain ⟨w, bs, rfl⟩ := Attribute.exists_of_readFrom_value has
  have hstart : Text.hasPrefix "#fnref-" ("#fnref-" ++ w) = true := Text.hasPrefix_iff.2 ⟨w, rfl⟩
  have hattribute : Attribute.isBackLink ⟨"href", some ("#fnref-" ++ w)⟩ = true := by
    show (true && Text.hasPrefix _ _ || _) = true
    rw [hstart]
    rfl
  rw [isBackLink, List.any_cons, hattribute]
  rfl

theorem isBackLink_of_body_end (ht : t.isSound = true) {before : Text}
    (h : t.body = before ++ "class=\"footnote-backref\"") : t.isBackLink = true := by
  obtain ⟨-, hname, has⟩ := isSound_iff.1 ht
  obtain ⟨closing, name, as⟩ := t
  have hquote : '"' ∉ name := by
    intro hmem
    exact absurd (List.all_eq_true.1 hname _ hmem) (by decide)
  have hbody : '"' ∈ (⟨closing, name, as⟩ : Tag).body := by
    rw [h]
    exact List.mem_append_right _ (by decide)
  cases closing with
  | true =>
    rcases List.mem_cons.1 hbody with hmem | hmem
    · cases hmem
    · exact absurd hmem hquote
  | false =>
    rcases List.eq_nil_or_concat as with rfl | ⟨bs, b, rfl⟩
    · rw [body_start, Attribute.sources_nil, List.append_nil] at hbody
      exact absurd hbody hquote
    · have hb : b.isSound = true := List.all_eq_true.1 has b (by simp)
      have hsource : name ++ Attribute.sources bs ++ b.source = before ++ "class=\"footnote-backref\"" := by
        rw [← h, body_start]
        simp
      simp [isBackLink, Attribute.isBackLink_of_source_end hb hsource]

end Tag

/-! ## Searches for links back -/

/-- The text is that of tags that are no links back. -/
def Unlinked (u : Text) : Prop := ∃ ts, tags? u = some ts ∧ ∀ t ∈ ts, t.isBackLink = false

namespace Unlinked

variable {u v : Text}

theorem append (hu : Unlinked u) (hv : Unlinked v) : Unlinked (u ++ v) := Tagged.append hu hv

theorem gt_mem (hu : Unlinked u) {a c : Text} (h : u = a ++ '<' :: c) : '>' ∈ c := by
  obtain ⟨ts, hts, -⟩ := hu
  obtain ⟨t, -, d, rfl⟩ := exists_tag_of_lt hts h
  exact List.mem_append_right _ List.mem_cons_self

theorem not_infix_linkStart (hu : Unlinked u) : ¬ "<a href=\"#fnref-".toList <:+: u := by
  rintro ⟨a, c, h⟩
  obtain ⟨ts, hts, hback⟩ := hu
  have hstart : u = a ++ '<' :: ("a href=\"#fnref-".toList ++ c) := by simpa using h.symm
  obtain ⟨t, ht, d, hd⟩ := exists_tag_of_lt hts hstart
  obtain ⟨e, hbody, -⟩ := exists_append_of_isPlain (by decide) (by decide) hd
  have hlink := Tag.isBackLink_of_body_start (isSound_of_tags? hts ht) hbody
  rw [hback t ht] at hlink
  cases hlink

theorem not_infix_linkEnd (hu : Unlinked u) : ¬ "class=\"footnote-backref\">".toList <:+: u := by
  rintro ⟨a, c, h⟩
  obtain ⟨ts, hts, hback⟩ := hu
  have hend : u = (a ++ "class=\"footnote-backref\"".toList) ++ '>' :: c := by simpa using h.symm
  obtain ⟨t, ht, d, hd⟩ := exists_tag_of_gt hts hend
  obtain ⟨e, hbody⟩ := exists_append_of_isPlain_end (by decide) (by decide) hd
  have hlink := Tag.isBackLink_of_body_end (isSound_of_tags? hts ht) hbody
  rw [hback t ht] at hlink
  cases hlink

end Unlinked

section replace

variable {p r u s : Text}

/-- The text is empty or starts with a tag that opens no link. -/
def Follows (s : Text) : Prop := s = [] ∨ ∃ c s', c ≠ 'a' ∧ s = '<' :: c :: s'

theorem Follows.exists_cons (h : Follows s) : s = [] ∨ ∃ s', s = '<' :: s' := by
  rcases h with rfl | ⟨c, s', -, rfl⟩
  · exact .inl rfl
  · exact .inr ⟨c :: s', rfl⟩

theorem Follows.of_append {w : Text} {c : Char} (hw : w.take 2 = ['<', c]) (hc : c ≠ 'a')
    (s : Text) : Follows (w ++ s) := by
  refine .inr ⟨c, w.drop 2 ++ s, hc, ?_⟩
  calc w ++ s = w.take 2 ++ w.drop 2 ++ s := by rw [List.take_append_drop]
    _ = '<' :: c :: (w.drop 2 ++ s) := by rw [hw]; rfl

/-- The search for a paragraph before a link back passes over a text without such links. -/
theorem Unlinked.replace_start (hu : Unlinked u) (hs : Follows s) :
    Text.replaceFrom "</p>\n<a href=\"#fnref-" r 0 (u ++ s) =
      u ++ Text.replaceFrom "</p>\n<a href=\"#fnref-" r 0 s := by
  have hparts : "</p>\n<a href=\"#fnref-".toList =
      "</p>\n".toList ++ "<a href=\"#fnref-".toList := by decide
  have hlink : ∀ rest : Text, s ≠ "<a href=\"#fnref-".toList ++ rest := by
    rintro rest rfl
    rcases hs with hs | ⟨c, s', hc, hs⟩
    · cases hs
    · exact hc (List.cons.inj (List.cons.inj hs).2).1.symm
  refine replaceFrom_append ?_
  rintro b ⟨a, rfl⟩ hne ⟨rest, hrest⟩
  rw [hparts, List.append_assoc] at hrest
  rcases List.append_eq_append_iff.1 hrest with ⟨d, rfl, hd⟩ | ⟨d, hd, hs'⟩
  · -- the paragraph ends inside the text, so the link would have to start there too
    rcases List.append_eq_append_iff.1 hd with ⟨e, rfl, -⟩ | ⟨e, hd', he⟩
    · exact hu.not_infix_linkStart ⟨a ++ "</p>\n", e, by simp⟩
    · cases d with
      | nil => exact hlink rest (by rw [he, ← List.nil_append e, ← hd'])
      | cons f d =>
        obtain ⟨rfl, htail⟩ := List.cons.inj hd'
        have hmem : '>' ∈ d := hu.gt_mem (List.append_assoc a "</p>\n".toList ('<' :: d)).symm
        have htail : '>' ∈ "a href=\"#fnref-".toList := by
          show '>' ∈ _
          rw [show "a href=\"#fnref-".toList = d ++ e from htail]
          exact List.mem_append_left e hmem
        exact absurd htail (by decide)
  · cases d with
    | nil => exact hlink rest hs'
    | cons e d =>
      obtain ⟨c, b, rfl⟩ := List.exists_cons_of_ne_nil hne
      rcases hs.exists_cons with rfl | ⟨s', rfl⟩
      · cases hs'
      · obtain ⟨rfl, -⟩ := List.cons.inj hs'
        have htail : '<' ∈ "/p>\n".toList := by
          rw [show "/p>\n".toList = b ++ '<' :: d from (List.cons.inj hd).2]
          exact List.mem_append_right b List.mem_cons_self
        exact absurd htail (by decide)

theorem Unlinked.replace_end (hu : Unlinked u) (hs : s = [] ∨ ∃ s', s = '<' :: s') :
    Text.replaceFrom "class=\"footnote-backref\">&#8617;</a>" r 0 (u ++ s) =
      u ++ Text.replaceFrom "class=\"footnote-backref\">&#8617;</a>" r 0 s := by
  have hparts : "class=\"footnote-backref\">&#8617;</a>".toList =
      "class=\"footnote-backref\">".toList ++ "&#8617;</a>".toList := by decide
  refine replaceFrom_append ?_
  rintro b ⟨a, rfl⟩ hne ⟨rest, hrest⟩
  rw [hparts, List.append_assoc] at hrest
  rcases List.append_eq_append_iff.1 hrest with ⟨d, rfl, -⟩ | ⟨d, hd, hs'⟩
  · exact hu.not_infix_linkEnd ⟨a, d, by simp⟩
  · cases d with
    | nil =>
      rw [List.append_nil] at hd
      exact hu.not_infix_linkEnd ⟨a, [], by rw [hd, List.append_nil]⟩
    | cons e d =>
      rcases hs with rfl | ⟨s', rfl⟩
      · cases hs'
      · obtain ⟨rfl, -⟩ := List.cons.inj hs'
        have hmem : '<' ∈ "class=\"footnote-backref\">".toList := by
          rw [hd]
          exact List.mem_append_right b List.mem_cons_self
        exact absurd hmem (by decide)

end replace

end Galley.Html
