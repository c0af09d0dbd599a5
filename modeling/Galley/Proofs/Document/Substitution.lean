import Galley.Proofs.Document.Token

/-!
# Substituting twice

A second substitution finds only the tokens that the first one left. What a token is replaced by
holds no brace and begins with a bracket, which stands in no token, so it cannot become part of
one. The bracket is what keeps the text before a replaced token from running into the text behind
it: a token that is replaced by nothing lets them meet, and they can form a new token
(`substitute_substitute_halvesAround_none_ne`).
-/

namespace Galley.Document.Token

/-! ## Reading a text from the left -/

theorem atStart?_cons_of_ne {c : Char} (h : c ≠ '\x7b') (s : Text) : atStart? (c :: s) = none := by
  rw [Option.eq_none_iff_forall_ne_some]
  intro name hname
  obtain ⟨-, rest, hrest⟩ := atStart?_eq_some_iff.1 hname
  exact h (List.cons.inj hrest).1

theorem piecesFrom_append (u s : Text) : piecesFrom u.length (u ++ s) = pieces s := by
  induction u with
  | nil => rfl
  | cons c u ih => exact ih

theorem pieces_written {name : Text} (h : isIdentifier name = true) (s : Text) :
    pieces (written name ++ s) = .token name :: pieces s := by
  obtain ⟨c, w, hw⟩ : ∃ c w, written name = c :: w := ⟨_, _, rfl⟩
  have hstart : atStart? (c :: (w ++ s)) = some name :=
    atStart?_eq_some_iff.2 ⟨h, s, by rw [hw, List.cons_append]⟩
  have hlength : (written name).length - 1 = w.length := by simp [hw]
  rw [hw, List.cons_append, pieces, piecesFrom, hstart]
  simp only [hlength, piecesFrom_append]

theorem pieces_cons {c : Char} {s : Text} (h : atStart? (c :: s) = none) :
    pieces (c :: s) = .plain c :: pieces s := by
  rw [pieces, piecesFrom, h]
  rfl

@[elab_as_elim]
theorem read_induction {motive : Text → Prop} (nil : motive [])
    (token : ∀ name s, isIdentifier name = true → motive s → motive (written name ++ s))
    (plain : ∀ c s, atStart? (c :: s) = none → motive s → motive (c :: s)) (s : Text) :
    motive s := by
  induction hn : s.length using Nat.strongRecOn generalizing s with
  | ind n ih =>
    subst hn
    cases s with
    | nil => exact nil
    | cons c s =>
      cases hstart : atStart? (c :: s) with
      | none => exact plain c s hstart (ih s.length (by simp) s rfl)
      | some name =>
        obtain ⟨hname, rest, hrest⟩ := atStart?_eq_some_iff.1 hstart
        rw [hrest]
        refine token name rest hname (ih rest.length ?_ rest rfl)
        rw [hrest, List.length_append]
        have hpos : 0 < (written name).length := by simp [written, opening]
        omega

theorem not_mem_written {c : Char} (hchar : isNameChar c = false) (hopening : c ∉ opening)
    (hclosing : c ∉ closing) {name : Text} (h : isIdentifier name = true) : c ∉ written name := by
  have hall : name.all isNameChar = true := (Bool.and_eq_true_iff.1 h).2
  have hname : c ∉ name := by
    intro hmem
    rw [List.all_eq_true.1 hall c hmem] at hchar
    cases hchar
  simp [written, hopening, hclosing, hname]

/-! ## Substitution -/

section substitution

variable {attrs : Attributes} {name s : Text}

theorem substitute_written (h : isIdentifier name = true) (s : Text) :
    substitute attrs (written name ++ s) =
      (Piece.token name).substitute attrs ++ substitute attrs s := by
  rw [substitute, pieces_written h, List.flatMap_cons]
  rfl

theorem substitute_cons {c : Char} (h : atStart? (c :: s) = none) :
    substitute attrs (c :: s) = c :: substitute attrs s := by
  rw [substitute, pieces_cons h, List.flatMap_cons]
  rfl

theorem substitute_append {u : Text} (h : '\x7b' ∉ u) (s : Text) :
    substitute attrs (u ++ s) = u ++ substitute attrs s := by
  induction u with
  | nil => rfl
  | cons c u ih =>
    obtain ⟨hc, hu⟩ : '\x7b' ≠ c ∧ '\x7b' ∉ u := by simpa using h
    rw [List.cons_append, substitute_cons (atStart?_cons_of_ne hc.symm _), ih hu]
    rfl

/-- Whether the piece is no token of an attribute that shows no value. -/
def Piece.showsValue (attrs : Attributes) : Piece → Bool
  | plain _ => true
  | token name => (attrs.get? name).all fun values => !(shownValues name values).isEmpty

theorem exists_substitute_eq_cons {values : List Text} (hget : attrs.get? name = some values)
    (h : (Piece.token name).showsValue attrs = true) :
    ∃ t, (Piece.token name).substitute attrs = '<' :: t := by
  have hne : shownValues name values ≠ [] := by simpa [Piece.showsValue, hget] using h
  obtain ⟨value, rest, hvalues⟩ := List.exists_cons_of_ne_nil hne
  simp only [Piece.substitute, hget, attributeHtml, hvalues, List.map_cons]
  cases rest with
  | nil => exact ⟨_, rfl⟩
  | cons other rest => exact ⟨_, rfl⟩

/-- What stands at the start of a substituted text, and holds no bracket, stood there before. -/
theorem prefix_of_prefix_substitute {w : Text} (hs : ∀ p ∈ pieces s, p.showsValue attrs = true)
    (hw : '<' ∉ w) (h : w <+: substitute attrs s) : w <+: s := by
  induction s using read_induction generalizing w with
  | nil => exact h
  | token name s hname ih =>
    rw [pieces_written hname, List.forall_mem_cons] at hs
    rw [substitute_written hname] at h
    cases hget : attrs.get? name with
    | some values =>
      obtain ⟨t, ht⟩ := exists_substitute_eq_cons hget hs.1
      rw [ht] at h
      -- the replacement begins with a bracket, so `w` ends before it
      cases w with
      | nil => exact List.nil_prefix
      | cons c w =>
        obtain ⟨rfl, -⟩ := List.cons_prefix_cons.1 h
        exact absurd List.mem_cons_self hw
    | none =>
      have hkept : (Piece.token name).substitute attrs = written name := by
        simp only [Piece.substitute, hget]
      rw [hkept] at h
      rcases List.prefix_or_prefix_of_prefix h (List.prefix_append _ _) with hshort | ⟨v, rfl⟩
      · exact hshort.trans (List.prefix_append _ _)
      · rw [List.prefix_append_right_inj] at h ⊢
        exact ih hs.2 (fun hmem => hw (List.mem_append_right _ hmem)) h
  | plain c s hstart ih =>
    rw [pieces_cons hstart, List.forall_mem_cons] at hs
    rw [substitute_cons hstart] at h
    cases w with
    | nil => exact List.nil_prefix
    | cons d w =>
      rw [List.cons_prefix_cons] at h ⊢
      exact ⟨h.1, ih hs.2 (fun hmem => hw (List.mem_cons_of_mem _ hmem)) h.2⟩

/-- Substitution forms no token together with the character in front of the text. -/
theorem atStart?_cons_substitute {c : Char} (hs : ∀ p ∈ pieces s, p.showsValue attrs = true)
    (h : atStart? (c :: s) = none) : atStart? (c :: substitute attrs s) = none := by
  rw [Option.eq_none_iff_forall_ne_some] at h ⊢
  intro name hname
  obtain ⟨hidentifier, rest, hwritten⟩ := atStart?_eq_some_iff.1 hname
  have hbracket : '<' ∉ written name :=
    not_mem_written (by decide) (by decide) (by decide) hidentifier
  obtain ⟨w, hw⟩ : ∃ w, written name = '\x7b' :: w := ⟨_, rfl⟩
  rw [hw] at hwritten hbracket
  obtain ⟨rfl, hbehind⟩ := List.cons.inj hwritten
  have hprefix : w <+: s := by
    apply prefix_of_prefix_substitute hs
    · exact fun hmem => hbracket (List.mem_cons_of_mem _ hmem)
    · exact ⟨rest, hbehind.symm⟩
  obtain ⟨behind, rfl⟩ := hprefix
  apply h name
  rw [atStart?_eq_some_iff, hw]
  exact ⟨hidentifier, behind, rfl⟩

/-- Substitution is idempotent where each token of a known attribute has a value to show. -/
theorem substitute_substitute (hs : ∀ p ∈ pieces s, p.showsValue attrs = true) :
    substitute attrs (substitute attrs s) = substitute attrs s := by
  induction s using read_induction with
  | nil => rfl
  | token name s hname ih =>
    rw [pieces_written hname, List.forall_mem_cons] at hs
    rw [substitute_written hname]
    cases hget : attrs.get? name with
    | some values =>
      have hhtml : (Piece.token name).substitute attrs = attributeHtml name values := by
        simp only [Piece.substitute, hget]
      have hbrace : '\x7b' ∉ name := not_mem_of_isIdentifier (by decide) hname
      rw [hhtml, substitute_append (not_mem_attributeHtml (by decide) hbrace values), ih hs.2]
    | none =>
      have hkept : (Piece.token name).substitute attrs = written name := by
        simp only [Piece.substitute, hget]
      rw [hkept, substitute_written hname, hkept, ih hs.2]
  | plain c s hstart ih =>
    rw [pieces_cons hstart, List.forall_mem_cons] at hs
    rw [substitute_cons hstart, substitute_cons (atStart?_cons_substitute hs.2 hstart), ih hs.2]

end substitution

/-- Two attributes that show values, and one that shows none. -/
def sampleAttributes : Attributes := ⟨[("tags", ["[a, b]"]), ("none", []), ("x", ["X"])]⟩

/-- A token between the halves of another. -/
def halvesAround (name : Text) : Text :=
  "\x7b\x7b " ++ written name ++ "post.x \x7d\x7d"

theorem substitute_substitute_halvesAround_tags :
    (∀ p ∈ pieces (halvesAround "tags"), p.showsValue sampleAttributes = true) ∧
      substitute sampleAttributes (substitute sampleAttributes (halvesAround "tags")) =
        substitute sampleAttributes (halvesAround "tags") := by
  have hs : ∀ p ∈ pieces (halvesAround "tags"), p.showsValue sampleAttributes = true := by decide
  exact ⟨hs, substitute_substitute hs⟩

/-- A token that is replaced by nothing lets the halves around it meet. -/
theorem substitute_substitute_halvesAround_none_ne :
    substitute sampleAttributes (halvesAround "none") = written "x" ∧
      substitute sampleAttributes (substitute sampleAttributes (halvesAround "none")) ≠
        substitute sampleAttributes (halvesAround "none") := by
  decide

end Galley.Document.Token
