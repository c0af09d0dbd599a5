import Galley.Proofs.Html.VisibleText

/-!
# Inert texts

A text is inert if none of its characters ends a text or a quoted value and each of its ampersands
begins an entity. Escaping writes every text in this form, decoding takes it back, and there are no
other inert texts: each of them is the escaped form of the text that it decodes to
(`escape_decode`).
-/

namespace Galley

namespace Text

theorem suffix_of_suffix_append {c : Char} {s t w : Text} (hc : c ∉ w) (h : c :: s <:+ w ++ t) :
    c :: s <:+ t := by
  induction w with
  | nil => exact h
  | cons d w ih =>
    rw [List.mem_cons, not_or] at hc
    rw [List.cons_append, List.suffix_cons_iff] at h
    rcases h with heq | hsuffix
    · exact absurd (List.cons.inj heq).1 hc.1
    · exact ih hc.2 hsuffix

end Text

namespace Html

/-- The characters that begin or end a tag or a quoted value. -/
def delimiters : List Char := ['<', '>', '"', '\'']

/-- The characters that escaping changes. -/
def specialChars : List Char := '&' :: delimiters

/-- Whether a text stays a text wherever it is put: it has no delimiter, and an ampersand only at
the start of an entity. -/
structure IsInert (t : Text) : Prop where
  delimiter_not_mem : ∀ c ∈ delimiters, c ∉ t
  exists_entity : ∀ s, '&' :: s <:+ t → ∃ entity ∈ entities, entity <+: '&' :: s

theorem escapeChar_mem_entities {c : Char} (hc : c ∈ specialChars) : escapeChar c ∈ entities := by
  simp only [specialChars, delimiters, List.mem_cons, List.not_mem_nil, or_false] at hc
  rcases hc with rfl | rfl | rfl | rfl | rfl <;> decide

theorem exists_escapeChar_eq {entity : Text} (he : entity ∈ entities) :
    ∃ c, escapeChar c = entity := by
  simp only [entities, List.mem_cons, List.not_mem_nil, or_false] at he
  rcases he with rfl | rfl | rfl | rfl | rfl
  · exact ⟨'&', rfl⟩
  · exact ⟨'<', rfl⟩
  · exact ⟨'>', rfl⟩
  · exact ⟨'"', rfl⟩
  · exact ⟨'\'', rfl⟩

theorem escapeChar_of_not_mem {c : Char} (h : c ∉ specialChars) : escapeChar c = [c] := by
  simp only [specialChars, delimiters, List.mem_cons, List.not_mem_nil, or_false, not_or] at h
  simp [escapeChar, h]

namespace IsInert

variable {s t : Text}

theorem nil : IsInert [] where
  delimiter_not_mem := fun _ _ => List.not_mem_nil
  exists_entity := by simp

theorem of_suffix (h : IsInert t) (hs : s <:+ t) : IsInert s where
  delimiter_not_mem := fun c hc hmem => h.delimiter_not_mem c hc (hs.subset hmem)
  exists_entity := fun s' hs' => h.exists_entity s' (hs'.trans hs)

theorem cons (h : IsInert t) {c : Char} (hc : c ∉ specialChars) : IsInert (c :: t) where
  delimiter_not_mem := by
    intro d hd hmem
    rcases List.mem_cons.1 hmem with rfl | hrest
    · exact hc (List.mem_cons_of_mem '&' hd)
    · exact h.delimiter_not_mem d hd hrest
  exists_entity := by
    intro s hs
    rcases List.suffix_cons_iff.1 hs with heq | hsuffix
    · obtain rfl := (List.cons.inj heq).1
      exact absurd List.mem_cons_self hc
    · exact h.exists_entity s hsuffix

theorem entity_append (h : IsInert t) {entity : Text} (he : entity ∈ entities) :
    IsInert (entity ++ t) where
  delimiter_not_mem := by
    have hentities : ∀ e ∈ entities, e.all (!delimiters.contains ·) = true := by decide
    intro c hc hmem
    rcases List.mem_append.1 hmem with hentity | hrest
    · have hchar := List.all_eq_true.1 (hentities entity he) c hentity
      simp [hc] at hchar
    · exact h.delimiter_not_mem c hc hrest
  exists_entity := by
    -- the only ampersand of an entity is its first character
    have hentities : ∀ e ∈ entities, ∃ w, e = '&' :: w ∧ '&' ∉ w := by
      simp only [entities, List.forall_mem_cons]
      refine ⟨⟨"amp;", rfl, by decide⟩, ⟨"lt;", rfl, by decide⟩, ⟨"gt;", rfl, by decide⟩,
        ⟨"quot;", rfl, by decide⟩, ⟨"#39;", rfl, by decide⟩, ?_⟩
      exact fun _ hmem => absurd hmem List.not_mem_nil
    obtain ⟨w, hw, hampersand⟩ := hentities entity he
    intro s hs
    rw [hw, List.cons_append, List.suffix_cons_iff] at hs
    rcases hs with heq | hsuffix
    · refine ⟨entity, he, t, ?_⟩
      rw [heq, hw, List.cons_append]
    · exact h.exists_entity s (Text.suffix_of_suffix_append hampersand hsuffix)

theorem escapeChar_append (h : IsInert t) (c : Char) : IsInert (escapeChar c ++ t) := by
  by_cases hc : c ∈ specialChars
  · exact h.entity_append (escapeChar_mem_entities hc)
  · rw [escapeChar_of_not_mem hc]
    exact h.cons hc

theorem escape (s : Text) : IsInert (Html.escape s) := by
  induction s with
  | nil => exact nil
  | cons c s ih => exact ih.escapeChar_append c

theorem exists_escapeChar_append {c : Char} (h : IsInert (c :: t)) :
    ∃ d rest, c :: t = escapeChar d ++ rest := by
  by_cases hc : c ∈ specialChars
  · have hampersand : c = '&' := by
      rcases List.mem_cons.1 hc with heq | hdelimiter
      · exact heq
      · exact absurd List.mem_cons_self (h.delimiter_not_mem c hdelimiter)
    rw [hampersand] at h ⊢
    obtain ⟨entity, he, rest, hrest⟩ := h.exists_entity t List.suffix_rfl
    obtain ⟨d, hd⟩ := exists_escapeChar_eq he
    exact ⟨d, rest, by rw [hd, hrest]⟩
  · exact ⟨c, t, by rw [escapeChar_of_not_mem hc]; rfl⟩

/-- An inert text is the escaped form of what it decodes to. -/
theorem escape_decode {t : Text} (h : IsInert t) : Html.escape (decode t) = t := by
  induction hlength : t.length using Nat.strongRecOn generalizing t with
  | _ n ih =>
    cases t with
    | nil => rfl
    | cons c t =>
      obtain ⟨d, rest, hrest⟩ := h.exists_escapeChar_append
      have hd : escapeChar d ≠ [] := by
        have hentities : ∀ e ∈ entities, e ≠ [] := by decide
        rcases escapeChar_mem_or d with hmem | ⟨heq, -⟩
        · exact hentities _ hmem
        · rw [heq]
          exact List.cons_ne_nil d []
      have hshorter : rest.length < n := by
        have hpos := List.length_pos_iff.2 hd
        have hsum := congrArg List.length hrest
        rw [List.length_append] at hsum
        omega
      have hinert : IsInert rest := h.of_suffix ⟨escapeChar d, hrest.symm⟩
      have hdecoded := ih rest.length hshorter hinert rfl
      rw [hrest, decode_escapeChar_append]
      show escapeChar d ++ Html.escape (decode rest) = _
      rw [hdecoded]

end IsInert

/-- Decoding an escaped text once, from the left, gives the text back. Escaped texts are inert, they
are the only inert texts, and they are put together as the texts are. -/
theorem escape_lossless (s : Text) :
    decode (escape s) = s ∧ IsInert (escape s) ∧ (∀ t, IsInert t ↔ escape (decode t) = t) ∧
      ∀ t, escape (s ++ t) = escape s ++ escape t := by
  refine ⟨decode_escape s, IsInert.escape s, ?_, escape_append s⟩
  intro t
  constructor
  · exact IsInert.escape_decode
  · intro h
    rw [← h]
    exact IsInert.escape (decode t)

end Html

end Galley
