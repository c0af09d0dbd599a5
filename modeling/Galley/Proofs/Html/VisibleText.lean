import Galley.Proofs.Html.Element
import Mathlib.Data.List.Induction

/-!
# The visible text of a page

What a page shows is what is left without its tags, with the entities of the five special characters
decoded. Of texts put together it is the texts that each of them shows, one behind the other, as long
as no entity is cut: `Shows` keeps this in view by saying of which text the escaped form stands
between the tags. Decoding gives an escaped text back (`decode_escape`).
-/

namespace Galley.Text

def withoutBlanks (s : Text) : Text := s.filter (!isBlank ·)

theorem withoutBlanks_append (s t : Text) :
    withoutBlanks (s ++ t) = withoutBlanks s ++ withoutBlanks t := List.filter_append ..

theorem withoutBlanks_of_all {s : Text} (h : s.all isBlank = true) : withoutBlanks s = [] := by
  rw [withoutBlanks, List.filter_eq_nil_iff]
  intro c hc
  simp [List.all_eq_true.1 h c hc]

end Galley.Text

namespace Galley.Html

open Text (isBlank withoutBlanks withoutBlanks_append withoutBlanks_of_all)

/-! ## Decoding -/

/-- The entities of the five special characters. -/
def entityTable : List (Text × Char) :=
  [("&amp;", '&'), ("&lt;", '<'), ("&gt;", '>'), ("&quot;", '"'), ("&#39;", '\'')]

/-- Decodes the entities of a text behind `skip` characters of an entity that was decoded. -/
def decodeFrom : Nat → Text → Text
  | _, [] => []
  | skip + 1, _ :: s => decodeFrom skip s
  | 0, c :: s =>
    match entityTable.find? (Text.hasPrefix ·.1 (c :: s)) with
    | some (entity, d) => d :: decodeFrom (entity.length - 1) s
    | none => c :: decodeFrom 0 s

/-- The text with the entities of the five special characters decoded, from the left and once. -/
def decode (s : Text) : Text := decodeFrom 0 s

theorem decode_cons_of_ne {c : Char} (hc : c ≠ '&') (s : Text) : decode (c :: s) = c :: decode s := by
  have hnone : entityTable.find? (Text.hasPrefix ·.1 (c :: s)) = none := by
    have hentities : ∀ e ∈ entityTable, ∃ tail, e.1 = '&' :: tail := by simp [entityTable]
    rw [List.find?_eq_none]
    intro e he hprefix
    obtain ⟨tail, htail⟩ := hentities e he
    obtain ⟨rest, hrest⟩ := Text.hasPrefix_iff.1 hprefix
    rw [htail] at hrest
    exact hc (List.cons.inj hrest).1
  rw [decode, decodeFrom, hnone]
  rfl

theorem decode_escapeChar_append (c : Char) (s : Text) :
    decode (escapeChar c ++ s) = c :: decode s := by
  unfold escapeChar
  split
  · next hc => exact hc ▸ rfl
  split
  · next hc => exact hc ▸ rfl
  split
  · next hc => exact hc ▸ rfl
  split
  · next hc => exact hc ▸ rfl
  split
  · next hc => exact hc ▸ rfl
  · next hamp _ _ _ _ => exact decode_cons_of_ne hamp s

/-- Decoding gives an escaped text back. -/
theorem decode_escape (s : Text) : decode (escape s) = s := by
  induction s with
  | nil => rfl
  | cons c s ih =>
    rw [escape, List.flatMap_cons, decode_escapeChar_append]
    exact congrArg (c :: ·) ih

/-! ## Blanks of an escaped text -/

theorem escapeChar_of_isBlank {c : Char} (h : isBlank c = true) : escapeChar c = [c] := by
  have hne : ∀ d : Char, isBlank d = false → c ≠ d := by
    rintro d hd rfl
    rw [hd] at h
    cases h
  rw [escapeChar, if_neg (hne _ (by decide)), if_neg (hne _ (by decide)), if_neg (hne _ (by decide)),
    if_neg (hne _ (by decide)), if_neg (hne _ (by decide))]

theorem escape_of_forall {s : Text} (h : ∀ c ∈ s, escapeChar c = [c]) : escape s = s := by
  induction s with
  | nil => rfl
  | cons c s ih =>
    rw [List.forall_mem_cons] at h
    rw [escape, List.flatMap_cons, h.1]
    exact congrArg (c :: ·) (ih h.2)

theorem escape_of_all_isBlank {s : Text} (h : s.all isBlank = true) : escape s = s :=
  escape_of_forall fun c hc => escapeChar_of_isBlank (List.all_eq_true.1 h c hc)

theorem exists_of_escape_eq_cons {s t : Text} {c : Char} (hc : isBlank c = true)
    (h : escape s = c :: t) : ∃ s', s = c :: s' ∧ t = escape s' := by
  have hne : c ≠ '&' := by
    rintro rfl
    exact absurd hc (by decide)
  cases s with
  | nil => cases h
  | cons d s =>
    obtain ⟨rfl, rfl⟩ := eq_of_escape_cons_eq hne h
    exact ⟨s, rfl, rfl⟩

theorem exists_of_escape_eq_concat {s t : Text} {c : Char} (hc : isBlank c = true)
    (h : escape s = t ++ [c]) : ∃ s', s = s' ++ [c] ∧ t = escape s' := by
  rcases List.eq_nil_or_concat s with rfl | ⟨s, d, rfl⟩
  · simp at h
  · have hsplit : escape s ++ escapeChar d = t ++ [c] := by
      rw [← h, List.concat_eq_append, escape_append]
      simp [escape]
    rcases escapeChar_mem_or d with hmem | ⟨hd, -⟩
    · have hentities : ∀ entity ∈ entities, ∃ start, entity = start ++ [';'] := by
        simp only [entities, List.forall_mem_cons]
        exact ⟨⟨"&amp", rfl⟩, ⟨"&lt", rfl⟩, ⟨"&gt", rfl⟩, ⟨"&quot", rfl⟩, ⟨"&#39", rfl⟩, by simp⟩
      obtain ⟨start, hstart⟩ := hentities _ hmem
      rw [hstart, ← List.append_assoc] at hsplit
      obtain rfl : ';' = c := List.singleton_inj.1 (List.append_inj' hsplit rfl).2
      exact absurd hc (by decide)
    · rw [hd] at hsplit
      obtain ⟨rfl, hlast⟩ := List.append_inj' hsplit rfl
      obtain rfl := List.singleton_inj.1 hlast
      exact ⟨s, List.concat_eq_append, rfl⟩

/-! ## Texts between tags -/

def Part.char? : Part → Option Char
  | .char c => some c
  | .tag _ | .comment _ => none

/-- The text of a page without its tags and comments. -/
def text? (s : Text) : Option Text := (parts? s).map (·.filterMap Part.char?)

theorem text?_eq_some_iff {s t : Text} : text? s = some t ↔
    ∃ ps, s = Part.sources ps ∧ ps.all Part.isSound = true ∧ ps.filterMap Part.char? = t := by
  simp only [text?, Option.map_eq_some_iff, parts?_eq_some_iff, and_assoc]

theorem text?_append {a b s t : Text} (ha : text? a = some s) (hb : text? b = some t) :
    text? (a ++ b) = some (s ++ t) := by
  obtain ⟨ps, rfl, hps, rfl⟩ := text?_eq_some_iff.1 ha
  obtain ⟨qs, rfl, hqs, rfl⟩ := text?_eq_some_iff.1 hb
  exact text?_eq_some_iff.2 ⟨ps ++ qs, by simp, by simp [hps, hqs], by simp⟩

theorem text?_of_isPlain {s : Text} (h : isPlain s = true) : text? s = some s := by
  refine text?_eq_some_iff.2 ⟨s.map .char, ?_, ?_, ?_⟩
  · simp [Part.sources, List.flatMap_map, Part.source]
  · simpa [Part.isSound, isPlain, Function.comp_def] using h
  · simp [List.filterMap_map, Function.comp_def, Part.char?]

theorem text?_tag {t : Tag} (h : t.isSound = true) : text? (Part.tag t).source = some [] := by
  refine text?_eq_some_iff.2 ⟨[.tag t], ?_, ?_, rfl⟩
  · rw [Part.sources_cons, Part.sources_nil, List.append_nil]
  · simpa [Part.isSound] using h

theorem text?_openTag (name : Text) {as : List Attribute} (hname : Tag.isName name = true)
    (has : as.all Attribute.isSound = true) : text? (openTag name as) = some [] := by
  rw [← source_start]
  exact text?_tag (by simp [Tag.isSound, hname, has])

theorem Part.exists_of_sources_eq_cons {ps : List Part} {c : Char} {s : Text}
    (hc : isBracket c = false) (h : sources ps = c :: s) : ∃ qs, ps = .char c :: qs ∧ sources qs = s := by
  cases ps with
  | nil => cases h
  | cons p ps =>
    rw [sources_cons] at h
    cases p with
    | char d =>
      obtain ⟨rfl, hs⟩ := List.cons.inj h
      exact ⟨ps, rfl, hs⟩
    | tag _ | comment _ =>
      obtain ⟨rfl, -⟩ := List.cons.inj h
      cases hc

theorem Part.exists_of_sources_eq_concat {ps : List Part} {c : Char} {s : Text}
    (hc : isBracket c = false) (h : sources ps = s ++ [c]) :
    ∃ qs, ps = qs ++ [.char c] ∧ sources qs = s := by
  rcases List.eq_nil_or_concat ps with rfl | ⟨ps, p, rfl⟩
  · simp at h
  · rw [List.concat_eq_append, sources_append, sources_cons, sources_nil, List.append_nil] at h
    have hbracketed : ∀ body : Text, sources ps ++ '<' :: (body ++ ['>']) ≠ s ++ [c] := by
      intro body heq
      have heq : (sources ps ++ '<' :: body) ++ ['>'] = s ++ [c] := by simpa using heq
      obtain rfl := List.singleton_inj.1 (List.append_inj' heq rfl).2
      cases hc
    cases p with
    | char d =>
      obtain ⟨hs, hlast⟩ := List.append_inj' h rfl
      obtain rfl := List.singleton_inj.1 hlast
      exact ⟨ps, List.concat_eq_append, hs⟩
    | tag _ | comment _ => exact absurd h (hbracketed _)

/-! ## What a text shows -/

/-- Without its tags the page is the escaped form of a text whose characters that are not blank are
`u`. -/
def Shows (html u : Text) : Prop := ∃ s, text? html = some (escape s) ∧ withoutBlanks s = u

namespace Shows

variable {html html' u v : Text}

theorem append (h : Shows html u) (h' : Shows html' v) : Shows (html ++ html') (u ++ v) := by
  obtain ⟨s, hs, rfl⟩ := h
  obtain ⟨t, ht, rfl⟩ := h'
  refine ⟨s ++ t, ?_, withoutBlanks_append s t⟩
  rw [escape_append]
  exact text?_append hs ht

theorem escape (s : Text) : Shows (Html.escape s) (withoutBlanks s) :=
  ⟨s, text?_of_isPlain (isPlain_escape s), rfl⟩

theorem of_text? {s : Text} (h : text? html = some s) (hs : s.all isBlank = true) : Shows html [] :=
  ⟨s, by rw [h, escape_of_all_isBlank hs], withoutBlanks_of_all hs⟩

theorem of_any (h : (text? html).any (·.all isBlank) = true) : Shows html [] := by
  obtain ⟨s, hs, hall⟩ := (Option.any_eq_true _ _).1 h
  exact of_text? hs hall

theorem nil : Shows [] [] := of_any rfl

theorem openTag (name : Text) {as : List Attribute} (hname : Tag.isName name = true)
    (has : as.all Attribute.isSound = true) : Shows (Html.openTag name as) [] :=
  of_text? (text?_openTag name hname has) rfl

theorem of_cons {c : Char} (hc : isBlank c = true) (h : Shows (c :: html) u) : Shows html u := by
  obtain ⟨s, hs, rfl⟩ := h
  obtain ⟨ps, hps, hsound, hchars⟩ := text?_eq_some_iff.1 hs
  have hplain : isBracket c = false := by
    simpa using isPlain_of_all_isBlank (s := [c]) (by simpa using hc)
  obtain ⟨qs, rfl, rfl⟩ := Part.exists_of_sources_eq_cons hplain hps.symm
  obtain ⟨s', rfl, ht⟩ := exists_of_escape_eq_cons hc hchars.symm
  rw [List.all_cons, Bool.and_eq_true] at hsound
  refine ⟨s', text?_eq_some_iff.2 ⟨qs, rfl, hsound.2, ht⟩, ?_⟩
  simp [withoutBlanks, hc]

theorem of_concat {c : Char} (hc : isBlank c = true) (h : Shows (html ++ [c]) u) : Shows html u := by
  obtain ⟨s, hs, rfl⟩ := h
  obtain ⟨ps, hps, hsound, hchars⟩ := text?_eq_some_iff.1 hs
  have hplain : isBracket c = false := by
    simpa using isPlain_of_all_isBlank (s := [c]) (by simpa using hc)
  obtain ⟨qs, rfl, rfl⟩ := Part.exists_of_sources_eq_concat hplain hps.symm
  rw [List.filterMap_append] at hchars
  obtain ⟨s', rfl, ht⟩ := exists_of_escape_eq_concat hc hchars.symm
  rw [List.all_append, Bool.and_eq_true] at hsound
  refine ⟨s', text?_eq_some_iff.2 ⟨qs, rfl, hsound.1, ht⟩, ?_⟩
  simp [withoutBlanks, hc]

theorem trim (h : Shows html u) : Shows (Text.trim html) u := by
  have hstart : Shows (Text.trimStart html) u := by
    rw [Text.trimStart]
    induction html with
    | nil => exact h
    | cons c html ih =>
      rw [List.dropWhile_cons]
      split
      · next hc => exact ih (h.of_cons hc)
      · exact h
  obtain ⟨b, hb, heq⟩ := Text.exists_append_dropEndWhile isBlank (Text.trimStart html)
  rw [heq] at hstart
  rw [Text.trim, Text.trimEnd]
  clear heq
  induction b using List.reverseRecOn with
  | nil => rwa [List.append_nil] at hstart
  | append_singleton b c ih =>
    rw [List.all_append, Bool.and_eq_true] at hb
    rw [← List.append_assoc] at hstart
    exact ih (hstart.of_concat (by simpa using hb.2)) hb.1

theorem lineTag (name tail : Text) (hname : Tag.isName name = true) (htail : tail.all isBlank = true)
    (line : Option Nat) : Shows ("<" ++ name ++ lineAttr line ++ (">" ++ tail)) [] := by
  have hopen := openTag name hname (all_isSound_lineAttributes line)
  have htail : Shows tail [] :=
    of_text? (text?_of_isPlain (isPlain_of_all_isBlank htail)) htail
  have hall := hopen.append htail
  rw [Html.openTag, sources_lineAttributes] at hall
  simpa using hall

theorem code (source : Text) :
    Shows ("<code>" ++ Html.escape source ++ "</code>") (withoutBlanks source) := by
  have hstart : Shows "<code>" [] := of_any (by decide)
  have hstop : Shows "</code>" [] := of_any (by decide)
  simpa using (hstart.append (escape source)).append hstop

theorem math (source : Text) (display : Bool) :
    Shows (Html.math source display) (withoutBlanks source) := by
  cases display with
  | true =>
    have hstart : Shows "<div class=\"katex katex-display\">" [] := of_any (by decide)
    have hstop : Shows "</div>" [] := of_any (by decide)
    simpa [Html.math] using (hstart.append (escape source)).append hstop
  | false =>
    have hstart : Shows "<span class=\"katex\">" [] := of_any (by decide)
    have hstop : Shows "</span>" [] := of_any (by decide)
    simpa [Html.math] using (hstart.append (escape source)).append hstop

theorem codeBlock (language : Option Text) (content : Text) (line : Option Nat) :
    Shows (Html.codeBlock language content (lineAttr line)) (withoutBlanks content) := by
  have hpre := openTag "pre" (by decide) (all_isSound_lineAttributes line)
  have hcode := openTag "code" (by decide) (all_isSound_languageAttributes language)
  have hstop : Shows "</code></pre>\n" [] := of_any (by decide)
  rw [codeBlock_eq]
  simpa using ((hpre.append hcode).append (escape content)).append hstop

end Shows

end Galley.Html
