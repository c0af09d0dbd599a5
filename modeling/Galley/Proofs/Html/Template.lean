import Galley.Proofs.Html.Comment
import Galley.Proofs.Html.Element

/-!
# Pages with places for lines

A template is a page in which the line attributes of its opening tags are left open. Filling it in
writes an attribute at each place whose line is known. What the places stand between is the same for
all lines: a filled template is the pieces of the template with the attributes between them
(`Template.fill_eq_interleave`).

A comment without blanks never stands across a place, whether there is an attribute or not: an
attribute begins with a blank, and without one the bracket of the tag follows a character that does
not end a comment. So replacing a comment in filled templates is filling in one template again
(`Templated.replace`).
-/

namespace Galley.Html

inductive Slot (α : Type)
  | char (c : Char)
  /-- The end of an opening tag: its last character, the place of the line attribute, and the
  bracket. -/
  | line (last : Char) (sound : last ∉ ['<', '-', '>']) (place : α)

/-- A page with places for line attributes. -/
abbrev Template (α : Type) := List (Slot α)

/-- The texts in order, with the inserted texts between them. -/
def interleave : List Text → List Text → Text
  | [], _ => []
  | piece :: pieces, [] => piece ++ interleave pieces []
  | piece :: pieces, inserted :: rest => piece ++ inserted ++ interleave pieces rest

theorem interleave_of_forall_eq_nil (pieces inserted : List Text) (h : ∀ s ∈ inserted, s = []) :
    interleave pieces inserted = pieces.flatten := by
  induction pieces generalizing inserted with
  | nil => rfl
  | cons piece pieces ih =>
    cases inserted with
    | nil => rw [interleave, ih [] h, List.flatten_cons]
    | cons s inserted =>
      rw [List.forall_mem_cons] at h
      rw [interleave, h.1, List.append_nil, ih inserted h.2, List.flatten_cons]

variable {α : Type}

def Slot.fill (line : α → Option Nat) : Slot α → Text
  | char c => [c]
  | Slot.line last _ place => last :: (lineAttr (line place) ++ ['>'])

def Slot.place? : Slot α → Option α
  | char _ => none
  | line _ _ place => some place

namespace Template

/-- The page with the line attributes filled in. -/
def fill (line : α → Option Nat) (t : Template α) : Text := t.flatMap (·.fill line)

def pieces : Template α → List Text
  | [] => [[]]
  | .char c :: t => Text.consHead c (pieces t)
  | .line last _ _ :: t => [last] :: Text.consHead '>' (pieces t)

def places (t : Template α) : List α := t.filterMap (·.place?)

@[simp] theorem fill_nil (line : α → Option Nat) : fill line ([] : Template α) = [] := rfl

@[simp] theorem fill_append (line : α → Option Nat) (t u : Template α) :
    fill line (t ++ u) = fill line t ++ fill line u := List.flatMap_append

@[simp] theorem fill_map_char (line : α → Option Nat) (s : Text) :
    fill line (s.map Slot.char) = s := by
  rw [fill, List.flatMap_map]
  exact List.flatMap_singleton' s

theorem interleave_consHead (c : Char) (pieces inserted : List Text) (h : pieces ≠ []) :
    interleave (Text.consHead c pieces) inserted = c :: interleave pieces inserted := by
  cases pieces with
  | nil => exact absurd rfl h
  | cons piece pieces => cases inserted <;> rfl

theorem length_consHead (c : Char) {pieces : List Text} (h : pieces ≠ []) :
    (Text.consHead c pieces).length = pieces.length := by
  cases pieces with
  | nil => exact absurd rfl h
  | cons piece pieces => rfl

theorem length_pieces (t : Template α) : t.pieces.length = t.places.length + 1 := by
  induction t with
  | nil => rfl
  | cons slot t ih =>
    have hne : pieces t ≠ [] := List.ne_nil_of_length_eq_add_one ih
    cases slot with
    | char c => exact (length_consHead c hne).trans ih
    | line last sound place =>
      show (Text.consHead '>' (pieces t)).length + 1 = _
      rw [length_consHead _ hne, ih]
      rfl

/-- A filled template is its pieces with the attributes of its places between them. -/
theorem fill_eq_interleave (line : α → Option Nat) (t : Template α) :
    t.fill line = interleave t.pieces (t.places.map fun place => lineAttr (line place)) := by
  induction t with
  | nil => rfl
  | cons slot t ih =>
    have hne : pieces t ≠ [] := List.ne_nil_of_length_eq_add_one (length_pieces t)
    cases slot with
    | char c =>
      refine (congrArg (c :: ·) ih).trans ?_
      exact (interleave_consHead c _ _ hne).symm
    | line last sound place =>
      show last :: (lineAttr (line place) ++ ['>']) ++ fill line t =
        [last] ++ lineAttr (line place) ++ interleave (Text.consHead '>' (pieces t)) _
      rw [interleave_consHead _ _ _ hne, ← places, ← ih]
      simp

theorem fill_none (t : Template α) : t.fill (fun _ => none) = t.pieces.flatten := by
  rw [fill_eq_interleave]
  exact interleave_of_forall_eq_nil _ _ fun s hs => List.eq_of_mem_replicate (List.map_const' ▸ hs)

end Template

/-! ## Texts that are filled in -/

/-- The texts are those of one template, filled in with all lines. -/
def Templated (html : (α → Option Nat) → Text) : Prop :=
  ∃ t : Template α, ∀ line, html line = t.fill line

namespace Templated

variable {html html' : (α → Option Nat) → Text}

theorem const (s : Text) : Templated fun _ : α → Option Nat => s :=
  ⟨s.map .char, fun line => (Template.fill_map_char line s).symm⟩

theorem congr (h : Templated html) (heq : ∀ line, html' line = html line) : Templated html' := by
  obtain ⟨t, ht⟩ := h
  exact ⟨t, fun line => (heq line).trans (ht line)⟩

theorem append (h : Templated html) (h' : Templated html') :
    Templated fun line => html line ++ html' line := by
  obtain ⟨t, ht⟩ := h
  obtain ⟨u, hu⟩ := h'
  exact ⟨t ++ u, fun line => by simp only [ht, hu, Template.fill_append]⟩

theorem surround (before : Text) (h : Templated html) (after : Text) :
    Templated fun line => before ++ html line ++ after :=
  ((const before).append h).append (const after)

theorem lineTag (start : Text) (last : Char) (sound : last ∉ ['<', '-', '>']) (tail : Text)
    (place : α) :
    Templated fun line => start ++ [last] ++ lineAttr (line place) ++ ('>' :: tail) := by
  refine ⟨start.map .char ++ .line last sound place :: tail.map .char, fun line => ?_⟩
  rw [Template.fill_append, Template.fill_map_char]
  show _ = start ++ (last :: (lineAttr (line place) ++ ['>']) ++ Template.fill line (tail.map .char))
  rw [Template.fill_map_char]
  simp

theorem lineStart (start : Text) (hend : start.getLast?.any (· ∉ ['<', '-', '>']) = true)
    (tail : Text) (place : α) :
    Templated fun line => start ++ lineAttr (line place) ++ ('>' :: tail) := by
  obtain ⟨last, hlast, hsound⟩ := (Option.any_eq_true _ _).1 hend
  obtain ⟨init, rfl⟩ := List.getLast?_eq_some_iff.1 hlast
  exact lineTag init last (by simpa using hsound) tail place

end Templated

/-! ## Replacing -/

section replace

variable {p r : Text}

/-- A search that finds `p` in `u` or not at all before `s` goes on with `s` as if `u` were not
there. -/
theorem replaceFrom_apart {u s : Text} (h : ∀ b, b <:+ u → b ≠ [] → p <+: b ++ s → p <+: b)
    {skip : Nat} (hskip : skip ≤ u.length) :
    Text.replaceFrom p r skip (u ++ s) = Text.replaceFrom p r skip u ++ Text.replaceFrom p r 0 s := by
  induction u generalizing skip with
  | nil =>
    obtain rfl : skip = 0 := Nat.le_zero.1 hskip
    rfl
  | cons c u ih =>
    have htail : ∀ b, b <:+ u → b ≠ [] → p <+: b ++ s → p <+: b :=
      fun b hb => h b (hb.trans (List.suffix_cons c u))
    cases skip with
    | succ skip => exact ih htail (Nat.le_of_succ_le_succ hskip)
    | zero =>
      rw [List.cons_append, Text.replaceFrom, Text.replaceFrom]
      by_cases hfound : Text.hasPrefix p (c :: (u ++ s)) = true
      · obtain ⟨rest, hrest⟩ := Text.hasPrefix_iff.1 hfound
        have hprefix : p <+: c :: u :=
          h (c :: u) List.suffix_rfl (List.cons_ne_nil c u) ⟨rest, hrest.symm⟩
        have hlength : p.length - 1 ≤ u.length := by
          have := hprefix.length_le
          rw [List.length_cons] at this
          omega
        obtain ⟨rest', hrest'⟩ := hprefix
        rw [if_pos hfound, if_pos (Text.hasPrefix_iff.2 ⟨rest', hrest'.symm⟩), ih htail hlength,
          List.append_assoc]
      · have hnot : ¬ Text.hasPrefix p (c :: u) = true := by
          intro hprefix
          obtain ⟨rest, hrest⟩ := Text.hasPrefix_iff.1 hprefix
          exact hfound (Text.hasPrefix_iff.2 ⟨rest ++ s, by rw [← List.append_assoc, ← hrest]; rfl⟩)
        rw [if_neg hfound, if_neg hnot, ih htail (Nat.zero_le _)]
        rfl

end replace

/-- The body of a comment without blanks. -/
structure Unbroken (c : Text) : Prop where
  plain : isPlain c = true
  blank : ' ' ∉ c

namespace Unbroken

variable {c s : Text}

theorem blank_not_mem (h : Unbroken c) : ' ' ∉ commentSource c := by
  have hblank := h.blank
  simp [Part.source, Part.commentBody, hblank]

theorem eq_dash (h : Unbroken c) {b d : Text} {last : Char}
    (heq : commentSource c = b ++ last :: '>' :: d) : last = '-' := by
  have hplain : '>' ∉ '<' :: Part.commentBody c := by
    have hbody := not_mem_of_isPlain (Part.isPlain_commentBody h.plain)
      (show isBracket '>' = true from rfl)
    simpa using hbody
  have heq : ('<' :: Part.commentBody c) ++ ['>'] = (b ++ [last]) ++ '>' :: d := by
    rw [List.append_assoc]
    exact heq
  rcases List.eq_nil_or_concat d with rfl | ⟨d, y, rfl⟩
  · have hinit := (List.append_inj' heq rfl).1
    have hend : ('<' :: ("!--" ++ c ++ "-")) ++ ['-'] = b ++ [last] := by
      rw [← hinit]
      simp [Part.commentBody]
    have hlast := (List.append_inj' hend rfl).2
    exact (List.cons.inj hlast).1.symm
  · rw [List.concat_eq_append, ← List.cons_append, ← List.append_assoc] at heq
    have hinit := (List.append_inj' heq rfl).1
    exact absurd (hinit ▸ List.mem_append_right _ List.mem_cons_self) hplain

/-- A comment never stands across a place. -/
theorem prefix_of_prefix_line (h : Unbroken c) {b : Text} {last : Char}
    (sound : last ∉ ['<', '-', '>']) (n : Option Nat)
    (hstart : commentSource c <+: b ++ (last :: (lineAttr n ++ ['>']) ++ s)) :
    commentSource c <+: b := by
  obtain ⟨rest, hrest⟩ := hstart
  rcases List.append_eq_append_iff.1 hrest with ⟨d, hb, -⟩ | ⟨d, hc, hd⟩
  · exact ⟨d, hb.symm⟩
  · cases d with
    | nil => exact ⟨[], by rw [hc, List.append_nil, List.append_nil]⟩
    | cons e d =>
      -- the comment goes on with the last character of the tag, and does not end there
      obtain ⟨rfl, hbehind⟩ := List.cons.inj hd
      have hmem : '>' ∉ [last] := by simpa using fun heq : '>' = last => sound (by simp [← heq])
      cases d with
      | nil =>
        have hend : ('<' :: Part.commentBody c) ++ ['>'] = b ++ [last] := hc
        exact absurd ((List.append_inj' hend rfl).2 ▸ List.mem_cons_self) hmem
      | cons e d =>
        cases n with
        | none =>
          obtain ⟨rfl, -⟩ := List.cons.inj hbehind
          exact absurd (h.eq_dash hc) fun heq => sound (by simp [heq])
        | some n =>
          obtain ⟨heq, -⟩ : ' ' = e ∧ _ := List.cons.inj hbehind
          have hmem : ' ' ∈ commentSource c := by
            rw [hc, heq]
            simp
          exact absurd hmem h.blank_not_mem

theorem replace_line (h : Unbroken c) (r u : Text) {last : Char} (sound : last ∉ ['<', '-', '>'])
    (n : Option Nat) (s : Text) :
    Text.replace (commentSource c) r (u ++ (last :: (lineAttr n ++ ['>']) ++ s)) =
      Text.replace (commentSource c) r u ++ [last] ++ lineAttr n ++
        ('>' :: Text.replace (commentSource c) r s) := by
  have hbracket : '<' ∉ last :: (lineAttr n ++ ['>']) := by
    have hlast : '<' ≠ last := fun heq => sound (by simp [← heq])
    have hline : isPlain (lineAttr n) = true := by
      rw [← sources_lineAttributes]
      exact Attribute.isPlain_sources (all_isSound_lineAttributes n)
    have hline := not_mem_of_isPlain hline (show isBracket '<' = true from rfl)
    simp [hlast, hline]
  calc Text.replaceFrom (commentSource c) r 0 (u ++ (last :: (lineAttr n ++ ['>']) ++ s))
    _ = Text.replaceFrom (commentSource c) r 0 u ++
        Text.replaceFrom (commentSource c) r 0 (last :: (lineAttr n ++ ['>']) ++ s) :=
      replaceFrom_apart (fun _ _ _ hprefix => h.prefix_of_prefix_line sound n hprefix) (Nat.zero_le _)
    _ = Text.replaceFrom (commentSource c) r 0 u ++
        (last :: (lineAttr n ++ ['>']) ++ Text.replaceFrom (commentSource c) r 0 s) :=
      congrArg _ (replaceFrom_of_not_mem (c := '<') rfl hbracket)
    _ = Text.replaceFrom (commentSource c) r 0 u ++ [last] ++ lineAttr n ++
        ('>' :: Text.replaceFrom (commentSource c) r 0 s) := by simp

end Unbroken

/-- Replacing a comment in filled templates is filling in one template again. -/
theorem Templated.replace {html : (α → Option Nat) → Text} (h : Templated html) {c : Text}
    (hc : Unbroken c) (r : Text) :
    Templated fun line => Text.replace (commentSource c) r (html line) := by
  obtain ⟨t, ht⟩ := h
  -- `u` is what stands between the place before `t` and `t`
  suffices hbehind : ∀ u : Text, Templated fun line =>
      Text.replace (commentSource c) r (u ++ Template.fill line t) from
    (hbehind []).congr fun line => by rw [ht, List.nil_append]
  clear ht
  induction t with
  | nil =>
    exact fun u => (Templated.const _).congr fun line => by rw [Template.fill_nil, List.append_nil]
  | cons slot t ih =>
    intro u
    cases slot with
    | char d => exact (ih (u ++ [d])).congr fun line => by rw [List.append_assoc]; rfl
    | line last sound place =>
      have hbefore : Templated fun line => _ :=
        .lineTag (Text.replace (commentSource c) r u) last sound [] place
      refine (hbefore.append (ih [])).congr fun line => ?_
      refine (hc.replace_line r u sound (line place) (Template.fill line t)).trans ?_
      simp

end Galley.Html
