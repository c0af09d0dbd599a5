import Galley.Proofs.Document.LinkReading

/-!
# Encoding link targets

A markup is read from the left: a link that starts at hand as a whole, and else a character. Encoding
changes the target of a link only, so it keeps the newlines of the markup, also those in a title of
several lines, and it adds no blanks.
-/

namespace Galley.Document

namespace Link

/-! ## Encoding link by link -/

theorem encodeFrom_skip (skip : Nat) (s : Text) : encodeFrom skip s = encodeFrom 0 (s.drop skip) := by
  induction s generalizing skip with
  | nil => cases skip <;> rfl
  | cons c s ih =>
    cases skip with
    | zero => rfl
    | succ skip => exact ih skip

end Link

theorem encodeLinkTargets_cons {c : Char} {s : Text} (h : Link.atStart? (c :: s) = none) :
    encodeLinkTargets (c :: s) = c :: encodeLinkTargets s := by
  show Link.encodeFrom 0 (c :: s) = _
  rw [Link.encodeFrom, h]
  rfl

theorem encodeLinkTargets_cons_of_ne {c : Char} (hc : c ≠ '[') (s : Text) :
    encodeLinkTargets (c :: s) = c :: encodeLinkTargets s :=
  encodeLinkTargets_cons (Link.atStart?_of_ne hc s)

theorem encodeLinkTargets_append_of_not_mem {w : Text} (hw : '[' ∉ w) (s : Text) :
    encodeLinkTargets (w ++ s) = w ++ encodeLinkTargets s := by
  induction w with
  | nil => rfl
  | cons c w ih =>
    rw [List.mem_cons, not_or] at hw
    rw [List.cons_append, encodeLinkTargets_cons_of_ne (Ne.symm hw.1), ih hw.2, List.cons_append]

theorem encodeLinkTargets_source {link : Link} {rest : Text}
    (h : Link.atStart? (link.source ++ rest) = some link) :
    encodeLinkTargets (link.source ++ rest) = link.encoded.source ++ encodeLinkTargets rest := by
  obtain ⟨c, s, hs⟩ := List.exists_cons_of_ne_nil
    (List.append_ne_nil_of_left_ne_nil link.source_ne_nil rest)
  rw [hs] at h ⊢
  show Link.encodeFrom 0 (c :: s) = _
  rw [Link.encodeFrom, h]
  dsimp only
  rw [Link.encodeFrom_skip, Text.drop_of_cons_eq_append link.source_ne_nil hs.symm]
  rfl

namespace Link

/-- A text is read from the left: a link that starts at hand as a whole, and else a character. -/
theorem read_induction {motive : Text → Prop} (nil : motive [])
    (link : ∀ link rest, atStart? (source link ++ rest) = some link → motive rest →
      motive (source link ++ rest))
    (plain : ∀ c s, atStart? (c :: s) = none → motive s → motive (c :: s)) (s : Text) :
    motive s := by
  induction hn : s.length using Nat.strongRecOn generalizing s with
  | ind n ih =>
    subst hn
    cases s with
    | nil => exact nil
    | cons c s =>
      cases hstart : atStart? (c :: s) with
      | none => exact plain c s hstart (ih s.length (by simp) s rfl)
      | some found =>
        obtain ⟨-, rest, hrest⟩ := exists_of_atStart? hstart
        rw [hrest] at hstart ⊢
        refine link found rest hstart (ih rest.length ?_ rest rfl)
        have hpos := List.length_pos_iff.2 found.source_ne_nil
        rw [hrest, List.length_append]
        omega

/-! ## The encoded target -/

/-- A target without the blanks around it, and with its spaces encoded. -/
def encodeTarget (target : Text) : Text := Text.replace " " "%20" (Text.trim target)

theorem encoded_eq (link : Link) : link.encoded = { link with target := encodeTarget link.target } :=
  rfl

section encodeTarget

variable {target : Text}

theorem encodeTarget_eq (target : Text) :
    encodeTarget target = Text.replace [' '] ['%', '2', '0'] (Text.trim target) := rfl

theorem space_not_mem_encodeTarget (target : Text) : ' ' ∉ encodeTarget target :=
  Text.not_mem_replace_singleton (by decide) _

theorem mem_of_mem_encodeTarget {c : Char} (hc : c ∉ ['%', '2', '0']) (h : c ∈ encodeTarget target) :
    c ∈ target :=
  (Text.mem_of_mem_replace h).elim (absurd · hc) Text.mem_of_mem_trim

theorem trimmed_encodeTarget (target : Text) : Text.Trimmed (encodeTarget target) := by
  have htrimmed := Text.trimmed_trim target
  have hkept {c : Char} (hc : Text.isBlank c = false) :
      Text.replace [' '] ['%', '2', '0'] [c] = [c] := by
    refine Text.replace_singleton_of_not_mem ?_
    intro hmem
    rw [← List.mem_singleton.1 hmem] at hc
    exact absurd hc (by decide)
  rw [encodeTarget_eq]
  generalize Text.trim target = t at htrimmed
  constructor
  · cases t with
    | nil => exact htrimmed.head
    | cons c t =>
      have hc := htrimmed.head c rfl
      rw [← List.singleton_append (x := c), Text.replace_singleton_append, hkept hc]
      exact htrimmed.head
  · rcases List.eq_nil_or_concat t with rfl | ⟨t, c, rfl⟩
    · exact htrimmed.last
    · rw [List.concat_eq_append] at htrimmed ⊢
      rw [Text.replace_singleton_append, hkept (htrimmed.last c (by simp))]
      simpa using htrimmed.last

theorem encodeTarget_eq_self (htrimmed : Text.Trimmed target) (hspace : ' ' ∉ target) :
    encodeTarget target = target := by
  rw [encodeTarget, htrimmed.trim_eq]
  exact Text.replace_singleton_of_not_mem hspace

theorem isInfix_of_isInfix_encodeTarget {p : Text} (hp : p ≠ []) (hspace : ' ' ∉ p)
    (hcode : ∀ c ∈ ['%', '2', '0'], c ∉ p) (h : p <:+: encodeTarget target) : p <:+: target := by
  rw [← Text.hasInfix_iff, encodeTarget_eq,
    Text.hasInfix_replace_singleton hp hspace (by decide) hcode, Text.hasInfix_iff] at h
  exact h.trans (Text.trim_isInfix target)

theorem countP_encodeTarget (target : Text) :
    (encodeTarget target).countP Text.isBlank ≤ target.countP Text.isBlank ∧
    ((encodeTarget target).countP Text.isBlank = target.countP Text.isBlank →
      encodeTarget target = target) := by
  obtain ⟨hle, hsame⟩ := Text.countP_trim target
  have hcount : (encodeTarget target).countP Text.isBlank + (Text.trim target).count ' ' =
      (Text.trim target).countP Text.isBlank :=
    Text.countP_replace_singleton (by decide) (by decide) _
  refine ⟨by omega, fun heq => ?_⟩
  have htrim := hsame (by omega)
  have hspace : ' ' ∉ target := by
    rw [← htrim]
    exact List.count_eq_zero.1 (by omega)
  exact encodeTarget_eq_self (htrim ▸ Text.trimmed_trim target) hspace

end encodeTarget

theorem countP_source (link : Link) :
    link.encoded.source.countP Text.isBlank ≤ link.source.countP Text.isBlank ∧
    (link.encoded.source.countP Text.isBlank = link.source.countP Text.isBlank → link.encoded = link) := by
  obtain ⟨hle, hsame⟩ := countP_encodeTarget link.target
  have hcount (link : Link) : link.source.countP Text.isBlank = ("[" : Text).countP Text.isBlank +
      link.text.countP Text.isBlank + ("](" : Text).countP Text.isBlank + link.target.countP Text.isBlank +
      link.title.countP Text.isBlank + (")" : Text).countP Text.isBlank := by
    simp only [source, List.countP_append]
  rw [hcount, hcount, encoded_eq]
  refine ⟨by dsimp only; omega, fun heq => ?_⟩
  rw [hsame (by dsimp only at heq; omega)]

/-! ## Newlines -/

theorem count_source_encoded {link : Link} (h : '\n' ∉ link.target) :
    link.encoded.source.count '\n' = link.source.count '\n' := by
  have htrim : '\n' ∉ Text.trim link.target := fun hmem => h (Text.mem_of_mem_trim hmem)
  have htarget : link.encoded.target.count '\n' = link.target.count '\n' := by
    show (Text.replace " " "%20" (Text.trim link.target)).count '\n' = _
    rw [Text.count_replace (by decide) (by decide), List.count_eq_zero.2 htrim,
      List.count_eq_zero.2 h]
  have htext : link.encoded.text = link.text := rfl
  have htitle : link.encoded.title = link.title := rfl
  simp only [source, List.count_append, htext, htitle, htarget]

end Link

theorem count_encodeLinkTargets (markup : Text) :
    (encodeLinkTargets markup).count '\n' = markup.count '\n' := by
  induction markup using Link.read_induction with
  | nil => rfl
  | link link rest hlink ih =>
    obtain ⟨htarget, -⟩ := Link.exists_of_atStart? hlink
    rw [encodeLinkTargets_source hlink, List.count_append, List.count_append, ih,
      Link.count_source_encoded htarget]
  | plain c s hplain ih => rw [encodeLinkTargets_cons hplain, List.count_cons, List.count_cons, ih]

end Galley.Document
