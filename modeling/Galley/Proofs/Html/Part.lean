import Galley.Proofs.Html.Tag

/-!
# The parts of a page

Reading cuts a page at its brackets: what stands between a `<` and the next `>` is a tag or a
comment, and every other character is text. A bracket outside of tags and comments is refused.

The main fact is `parts?_eq_some_iff`: the reader accepts exactly what sound parts write, and
gives these parts back.
-/

namespace Galley.Html

/-! ## Parts -/

/-- A part of a page: a character of its text, a tag, or a comment. -/
inductive Part
  | char (c : Char)
  | tag (t : Tag)
  /-- A comment with what stands between `<!--` and `-->`. -/
  | comment (s : Text)
deriving DecidableEq, Repr

namespace Part

def commentBody (s : Text) : Text := "!--" ++ s ++ "--"

def source : Part → Text
  | char c => [c]
  | tag t => '<' :: (t.body ++ ['>'])
  | comment s => '<' :: (commentBody s ++ ['>'])

/-- Whether the part can be read back. -/
def isSound : Part → Bool
  | char c => !isBracket c
  | tag t => t.isSound
  | comment s => isPlain s

def tag? : Part → Option Tag
  | tag t => some t
  | char _ | comment _ => none

/-- Whether the part stands between brackets. -/
def isPiece : Part → Bool
  | tag _ | comment _ => true
  | char _ => false

def ofBody? (s : Text) : Option Part :=
  match Text.dropPrefix? "!--" s with
  | some rest => (Text.dropSuffix? "--" rest).map comment
  | none => (Tag.ofBody? s).map tag

/-- Reads the rest of a page, inside a tag of which some was read or outside of tags. -/
def readFrom : Option Text → Text → Option (List Part)
  | none, [] => some []
  | none, c :: s =>
    if c = '<' then readFrom (some []) s
    else if c = '>' then none
    else (readFrom none s).map (char c :: ·)
  | some _, [] => none
  | some body, c :: s =>
    if c = '<' then none
    else if c = '>' then (ofBody? body).bind fun p => (readFrom none s).map (p :: ·)
    else readFrom (some (body ++ [c])) s

end Part

def parts? (s : Text) : Option (List Part) := Part.readFrom none s

namespace Part

def sources (ps : List Part) : Text := ps.flatMap source

@[simp] theorem sources_nil : sources [] = [] := rfl

@[simp] theorem sources_cons (p : Part) (ps : List Part) :
    sources (p :: ps) = p.source ++ sources ps := rfl

@[simp] theorem sources_append (ps qs : List Part) :
    sources (ps ++ qs) = sources ps ++ sources qs := List.flatMap_append

theorem isPlain_commentBody {s : Text} (h : isPlain s = true) :
    isPlain (commentBody s) = true := by
  simp [commentBody, h]
  decide

theorem ofBody?_commentBody (s : Text) : ofBody? (commentBody s) = some (comment s) := by
  have hstart : Text.dropPrefix? "!--" (commentBody s) = some (s ++ "--".toList) :=
    Text.dropPrefix?_eq_some_iff.2 (List.append_assoc ..)
  have hstop : Text.dropSuffix? "--" (s ++ "--".toList) = some s :=
    Text.dropSuffix?_eq_some_iff.2 rfl
  rw [ofBody?, hstart]
  simp only [hstop, Option.map_some]

theorem ofBody?_body {t : Tag} (h : t.isSound = true) : ofBody? t.body = some (tag t) := by
  have hstart : Text.dropPrefix? "!--" t.body = none := by
    obtain ⟨c, s, hbody, hc⟩ := t.body_eq_cons h
    rw [hbody]
    show (if '!' = c then _ else _) = _
    rw [if_neg (Ne.symm hc)]
  rw [ofBody?, hstart]
  simp only [Tag.ofBody?_body h, Option.map_some]

theorem source_of_ofBody? {s : Text} {p : Part} (hs : isPlain s = true)
    (h : ofBody? s = some p) : p.source = '<' :: (s ++ ['>']) ∧ p.isSound = true := by
  unfold ofBody? at h
  split at h
  · next rest hrest =>
    obtain ⟨u, hu, rfl⟩ := Option.map_eq_some_iff.1 h
    obtain rfl := Text.dropPrefix?_eq_some_iff.1 hrest
    obtain rfl := Text.dropSuffix?_eq_some_iff.1 hu
    have hu : isPlain u = true := by
      simp only [isPlain_append, Bool.and_eq_true] at hs
      exact hs.2.1
    exact ⟨by simp [source, commentBody], hu⟩
  · obtain ⟨t, ht, rfl⟩ := Option.map_eq_some_iff.1 h
    obtain ⟨rfl, hsound⟩ := Tag.ofBody?_eq_some_iff.1 ht
    exact ⟨rfl, hsound⟩

theorem exists_body_of_isPiece {p : Part} (hp : p.isSound = true) (hpiece : p.isPiece = true) :
    ∃ body, isPlain body = true ∧ ofBody? body = some p ∧ p.source = '<' :: (body ++ ['>']) := by
  cases p with
  | char c => cases hpiece
  | tag t => exact ⟨t.body, t.isPlain_body hp, ofBody?_body hp, rfl⟩
  | comment s => exact ⟨commentBody s, isPlain_commentBody hp, ofBody?_commentBody s, rfl⟩

theorem readFrom_some {t : Text} (ht : isPlain t = true) (b s : Text) :
    readFrom (some b) (t ++ '>' :: s) =
      (ofBody? (b ++ t)).bind fun p => (readFrom none s).map (p :: ·) := by
  induction t generalizing b with
  | nil => simp [readFrom]
  | cons c t ih =>
    obtain ⟨hc, ht⟩ : isBracket c = false ∧ isPlain t = true := by simpa using ht
    obtain ⟨hlt, hgt⟩ : c ≠ '<' ∧ c ≠ '>' := by simpa [isBracket] using hc
    rw [List.cons_append, readFrom, if_neg hlt, if_neg hgt, ih ht, List.append_assoc]
    rfl

theorem readFrom_bracketed {b : Text} (hb : isPlain b = true) {p : Part}
    (hp : ofBody? b = some p) (s : Text) :
    readFrom none ('<' :: (b ++ ['>']) ++ s) = (readFrom none s).map (p :: ·) := by
  have hinside := readFrom_some hb [] s
  rw [List.nil_append, hp, Option.bind_some] at hinside
  rw [← hinside, List.cons_append, List.append_assoc]
  rfl

theorem readFrom_source {p : Part} (hp : p.isSound = true) (s : Text) :
    readFrom none (p.source ++ s) = (readFrom none s).map (p :: ·) := by
  cases p with
  | char c =>
    obtain ⟨hlt, hgt⟩ : c ≠ '<' ∧ c ≠ '>' := by simpa [isSound, isBracket] using hp
    show readFrom none (c :: s) = _
    rw [readFrom, if_neg hlt, if_neg hgt]
  | tag t => exact readFrom_bracketed (t.isPlain_body hp) (ofBody?_body hp) s
  | comment u => exact readFrom_bracketed (isPlain_commentBody hp) (ofBody?_commentBody u) s

theorem source_of_readFrom {inside : Option Text} {s : Text} {ps : List Part}
    (hin : inside.all isPlain = true) (h : readFrom inside s = some ps) :
    (inside.elim [] ('<' :: ·)) ++ s = sources ps ∧ ps.all isSound = true := by
  fun_induction readFrom inside s generalizing ps with
  | case1 =>
    obtain rfl := Option.some.inj h
    exact ⟨rfl, rfl⟩
  | case2 s ih => simpa using ih rfl h
  | case3 => cases h
  | case4 c s hlt hgt ih =>
    obtain ⟨qs, hqs, rfl⟩ := Option.map_eq_some_iff.1 h
    obtain ⟨hsrc, hsound⟩ := ih rfl hqs
    refine ⟨by simpa [source] using hsrc, ?_⟩
    simp [isSound, isBracket, hlt, hgt, hsound]
  | case5 => cases h
  | case6 => cases h
  | case7 body s _ ih =>
    obtain ⟨p, hp, h⟩ := Option.bind_eq_some_iff.1 h
    obtain ⟨qs, hqs, rfl⟩ := Option.map_eq_some_iff.1 h
    obtain ⟨hsrc, hsound⟩ := ih rfl hqs
    obtain ⟨hp, hpsound⟩ := source_of_ofBody? (by simpa using hin) hp
    refine ⟨?_, by simp [hpsound, hsound]⟩
    rw [sources_cons, hp, ← hsrc]
    simp
  | case8 body c s hlt hgt ih =>
    have hin : (some (body ++ [c])).all isPlain = true := by
      simpa [isBracket, hlt, hgt] using hin
    simpa using ih hin h

end Part

/-- The reader accepts exactly what sound parts write. -/
theorem parts?_eq_some_iff {s : Text} {ps : List Part} :
    parts? s = some ps ↔ s = Part.sources ps ∧ ps.all Part.isSound = true := by
  constructor
  · intro h
    have hnone : (none : Option Text).all isPlain = true := rfl
    exact Part.source_of_readFrom hnone h
  · rintro ⟨rfl, h⟩
    induction ps with
    | nil => rfl
    | cons p ps ih =>
      obtain ⟨hp, hps⟩ : p.isSound = true ∧ ps.all Part.isSound = true := by simpa using h
      rw [Part.sources_cons, parts?, Part.readFrom_source hp]
      show (parts? (Part.sources ps)).map _ = _
      rw [ih hps]
      rfl

end Galley.Html
