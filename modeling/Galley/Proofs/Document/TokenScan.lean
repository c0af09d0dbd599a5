import Galley.Document.Token.Scan
import Galley.Proofs.Document.Substitution

/-!
# The tokens that a scan finds

A scan over the bytes of a text finds the tokens among its pieces, each where it stands
(`scan_eq`), so it ends for every text and cuts it only where a character starts. The tokens of a
text do not overlap: a token begins with two braces and a space and holds no other brace, so none
starts inside another one. Hence a scan misses none (`scan_exact`).
-/

namespace Galley

namespace Text

theorem hasPrefix_append_append (p q s : Text) : hasPrefix (p ++ q) (p ++ s) = hasPrefix q s := by
  rw [Bool.eq_iff_iff, hasPrefix_iff, hasPrefix_iff]
  simp only [List.append_assoc, List.append_cancel_left_eq]

theorem hasPrefix_of_append {p q s : Text} (h : hasPrefix (p ++ q) s = true) :
    hasPrefix p s = true := by
  obtain ⟨rest, hrest⟩ := hasPrefix_iff.1 h
  exact hasPrefix_iff.2 ⟨q ++ rest, by rw [hrest, List.append_assoc]⟩

end Text

namespace Document.Token

open Text (byteLength byteLength_append bytes findByte? fromByte fromByte_append fromByte_eq_ok_iff
  hasPrefix hasPrefix_iff slice slice_eq_ok_iff)

/-! ## Names -/

theorem isNameByte_ofNat : ∀ n < 128, isNameByte (UInt8.ofNat n) = isNameChar (Char.ofNat n) := by
  decide

theorem isNameByte_of_le {b : UInt8} (h : 128 ≤ b.toNat) : isNameByte b = false := by
  have hne : b ≠ 95 ∧ b ≠ 45 := by
    constructor <;> rintro rfl <;> exact absurd h (by decide)
  simp [isNameByte, UInt8.le_iff_toNat_le, hne]
  omega

theorem isNameChar_of_le {c : Char} (h : 128 ≤ c.toNat) : isNameChar c = false := by
  have hne : c ≠ '_' ∧ c ≠ '-' := by
    constructor <;> rintro rfl <;> exact absurd h (by decide)
  have hbehind {d : Char} (hd : d.toNat < 128) : ¬ c.val ≤ d.val := by
    intro hle
    have hnat : c.toNat ≤ d.toNat := UInt32.le_iff_toNat_le.1 hle
    omega
  have hupper : c.isUpper = false := decide_eq_false fun hrange => hbehind (by decide) hrange.2
  have hlower : c.isLower = false :=
    Bool.and_eq_false_imp.2 fun _ => decide_eq_false (hbehind (by decide))
  have hdigit : c.isDigit = false :=
    Bool.and_eq_false_imp.2 fun _ => decide_eq_false (hbehind (by decide))
  have halphanum : c.isAlphanum = false := by
    show (c.isUpper || c.isLower || c.isDigit) = false
    rw [hupper, hlower, hdigit]
    rfl
  rw [isNameChar, halphanum, decide_eq_false hne.1, decide_eq_false hne.2]
  rfl

theorem utf8EncodeChar_cases (c : Char) :
    (isNameChar c = true ∧ c.utf8Size = 1 ∧
        ∃ b, String.utf8EncodeChar c = [b] ∧ isNameByte b = true) ∨
      (isNameChar c = false ∧ ∃ b t, String.utf8EncodeChar c = b :: t ∧ isNameByte b = false) := by
  by_cases hascii : c.toNat < 128
  · have hencode : String.utf8EncodeChar c = [UInt8.ofNat c.toNat] := by
      rw [String.utf8EncodeChar]
      exact if_pos (Nat.le_of_lt_succ hascii)
    have hbyte := isNameByte_ofNat c.toNat hascii
    rw [Char.ofNat_toNat] at hbyte
    cases hname : isNameChar c with
    | true =>
      have hsize : c.utf8Size = 1 := by
        rw [← String.length_utf8EncodeChar, hencode]
        rfl
      exact .inl ⟨rfl, hsize, _, hencode, hbyte.trans hname⟩
    | false => exact .inr ⟨rfl, _, _, hencode, hbyte.trans hname⟩
  · have hval : ¬ c.val.toNat ≤ 127 := by
      have heq : c.val.toNat = c.toNat := rfl
      omega
    refine .inr ⟨isNameChar_of_le (by omega), ?_⟩
    rw [String.utf8EncodeChar]
    simp only [if_neg hval]
    split
    · exact ⟨_, _, rfl, isNameByte_of_le (by rw [UInt8.toNat_ofNat']; omega)⟩
    split
    · exact ⟨_, _, rfl, isNameByte_of_le (by rw [UInt8.toNat_ofNat']; omega)⟩
    · exact ⟨_, _, rfl, isNameByte_of_le (by rw [UInt8.toNat_ofNat']; omega)⟩

theorem nameLength_eq (s : Text) : nameLength s = byteLength (s.takeWhile isNameChar) := by
  unfold nameLength
  induction s with
  | nil => rfl
  | cons c s ih =>
    have hbytes : bytes (c :: s) = String.utf8EncodeChar c ++ bytes s := rfl
    rw [hbytes]
    rcases utf8EncodeChar_cases c with ⟨hname, hsize, b, hb, hbyte⟩ | ⟨hname, b, t, hb, hbyte⟩
    · rw [hb, List.singleton_append, List.takeWhile_cons_of_pos hbyte,
        List.takeWhile_cons_of_pos hname, List.length_cons, byteLength, hsize, ih, Nat.add_comm]
    · rw [hb, List.cons_append, List.takeWhile_cons_of_neg (by simp [hbyte]),
        List.takeWhile_cons_of_neg (by simp [hname])]
      rfl

/-! ## One step -/

/-- The token of a name, found at a byte offset. -/
def foundAt (offset : Nat) (name : Text) : Found :=
  ⟨scope, name, offset, offset + byteLength (written name)⟩

theorem scopeAt?_eq (s : Text) :
    scopeAt? s = .ok (if hasPrefix (scope ++ ".") s then some scope else none) := by
  simp only [scopeAt?, scopes, List.findM?, bind, Except.bind, pure, Except.pure]
  cases hscope : hasPrefix scope s with
  | true =>
    obtain ⟨rest, rfl⟩ := hasPrefix_iff.1 hscope
    rw [if_pos rfl, fromByte_append, Text.hasPrefix_append_append]
    dsimp only
    cases hasPrefix "." rest <;> rfl
  | false =>
    have hdot : ¬ hasPrefix (scope ++ ".") s = true := by
      intro h
      rw [Text.hasPrefix_of_append h] at hscope
      cases hscope
    rw [if_neg hdot]
    rfl

theorem atStart?_opening_append (s : Text) :
    atStart? (opening ++ s) =
      if (s.takeWhile isNameChar).isEmpty then none
      else if hasPrefix closing (s.dropWhile isNameChar) then some (s.takeWhile isNameChar)
      else none := by
  rw [atStart?, Text.dropPrefix?_eq_some_iff.2 rfl]
  rfl

theorem opening_eq : opening = braces ++ (scope ++ ".") := rfl

theorem readAt_opening (a s : Text) :
    readAt (a ++ (opening ++ s)) (byteLength a) =
      .ok ((atStart? (opening ++ s)).map (foundAt (byteLength a))) := by
  obtain ⟨name, after, hname, hafter, rfl⟩ : ∃ name after,
      s.takeWhile isNameChar = name ∧ s.dropWhile isNameChar = after ∧ s = name ++ after :=
    ⟨_, _, rfl, rfl, List.takeWhile_append_dropWhile.symm⟩
  rw [atStart?_opening_append, hname, hafter]
  generalize htext : a ++ (opening ++ (name ++ after)) = text
  have hscope : text = a ++ braces ++ (scope ++ ("." ++ (name ++ after))) := by
    rw [← htext, opening_eq]
    simp only [List.append_assoc]
  have hopened : text = a ++ opening ++ (name ++ after) := by rw [← htext, List.append_assoc]
  have hclosed : text = a ++ opening ++ name ++ after := by
    rw [hopened, List.append_assoc (a ++ opening)]
  -- the offsets at which the scope and the name start and stop
  have hscopeStart : byteLength a + byteLength braces = byteLength (a ++ braces) :=
    (byteLength_append a braces).symm
  have hnameStart : byteLength (a ++ braces) + byteLength scope + 1 = byteLength (a ++ opening) := by
    rw [← hscopeStart, byteLength_append]
    rfl
  have hnameStop : byteLength (a ++ opening) + byteLength name = byteLength (a ++ opening ++ name) :=
    (byteLength_append _ _).symm
  have hscopeSlice : slice text (byteLength (a ++ braces))
      (byteLength (a ++ braces) + byteLength scope) = .ok scope :=
    slice_eq_ok_iff.2 ⟨_, _, hscope, rfl, rfl⟩
  have hnameSlice : slice text (byteLength (a ++ opening)) (byteLength (a ++ opening ++ name)) =
      .ok name :=
    slice_eq_ok_iff.2 ⟨_, _, hopened, rfl, hnameStop.symm⟩
  have hdot : hasPrefix (scope ++ ".") (scope ++ ("." ++ (name ++ after))) = true :=
    hasPrefix_iff.2 ⟨_, rfl⟩
  simp only [readAt, hscopeStart, fromByte_eq_ok_iff.2 ⟨_, hscope, rfl⟩, scopeAt?_eq, hdot, if_true,
    hnameStart, fromByte_eq_ok_iff.2 ⟨_, hopened, rfl⟩, nameLength_eq, hname, hnameStop,
    fromByte_eq_ok_iff.2 ⟨_, hclosed, rfl⟩, hscopeSlice, hnameSlice, bind, Except.bind, pure,
    Except.pure]
  cases name with
  | nil => rfl
  | cons c name =>
    have hpos : byteLength (c :: name) ≠ 0 := by
      have hsize := c.utf8Size_pos
      rw [byteLength]
      omega
    rw [if_neg hpos]
    cases hasPrefix closing after with
    | false => rfl
    | true =>
      have hstop : byteLength (a ++ opening ++ c :: name) + byteLength closing =
          byteLength a + byteLength (written (c :: name)) := by
        simp only [written, byteLength_append, Nat.add_assoc]
      rw [hstop]
      rfl

theorem readAt_append (a : Text) {v : Text} (hv : hasPrefix braces v = true) :
    readAt (a ++ v) (byteLength a) = .ok ((atStart? v).map (foundAt (byteLength a))) := by
  obtain ⟨rest, rfl⟩ := hasPrefix_iff.1 hv
  cases hscope : hasPrefix (scope ++ ".") rest with
  | true =>
    obtain ⟨s, rfl⟩ := hasPrefix_iff.1 hscope
    have hopening : braces ++ (scope ++ "." ++ s) = opening ++ s := by
      simp only [opening_eq, List.append_assoc]
    rw [hopening]
    exact readAt_opening a s
  | false =>
    have hrest : fromByte (a ++ (braces ++ rest)) (byteLength a + byteLength braces) =
        .ok rest := by
      rw [← byteLength_append, ← List.append_assoc, fromByte_append]
    have hnot : Text.dropPrefix? opening (braces ++ rest) = none := by
      rw [← Option.isNone_iff_eq_none, ← Option.isSome_eq_false_iff]
      show hasPrefix opening (braces ++ rest) = false
      rw [opening_eq, Text.hasPrefix_append_append, hscope]
    simp only [readAt, hrest, scopeAt?_eq, hscope, bind, Except.bind, pure, Except.pure]
    rw [atStart?, hnot]
    rfl

theorem findByte?_cases (s : Text) :
    (findByte? braces s = none ∧ pieces s = s.map .plain) ∨
      ∃ u v, s = u ++ v ∧ findByte? braces s = some (byteLength u) ∧ hasPrefix braces v = true ∧
        pieces s = u.map .plain ++ pieces v := by
  induction s with
  | nil => exact .inl ⟨rfl, rfl⟩
  | cons c s ih =>
    cases hstarts : hasPrefix braces (c :: s) with
    | true => exact .inr ⟨[], c :: s, rfl, by rw [findByte?, if_pos hstarts]; rfl, hstarts, rfl⟩
    | false =>
      have hfind : findByte? braces (c :: s) = (findByte? braces s).map (c.utf8Size + ·) := by
        rw [findByte?, if_neg (by simp [hstarts])]
      have hnone : atStart? (c :: s) = none := by
        rw [Option.eq_none_iff_forall_ne_some]
        intro name hname
        obtain ⟨-, rest, hrest⟩ := atStart?_eq_some_iff.1 hname
        have hbraces : hasPrefix braces (c :: s) = true := by
          rw [hasPrefix_iff, hrest]
          exact ⟨_, rfl⟩
        exact Bool.false_ne_true (hstarts.symm.trans hbraces)
      rw [hfind, pieces_cons hnone]
      rcases ih with ⟨hnowhere, hpieces⟩ | ⟨u, v, rfl, hsome, hv, hpieces⟩
      · exact .inl ⟨by rw [hnowhere]; rfl, by rw [hpieces]; rfl⟩
      · exact .inr ⟨c :: u, v, rfl, by rw [hsome]; rfl, hv, by rw [hpieces]; rfl⟩

section step

variable {u v : Text}

theorem step_finished (a : Text) (hfind : findByte? braces v = none) :
    step (a ++ v) (byteLength a) = .ok .finished := by
  simp only [step, fromByte_append, hfind, bind, Except.bind, pure, Except.pure]

theorem step_goOn (a : Text) (hfind : findByte? braces (u ++ v) = some (byteLength u))
    (hv : hasPrefix braces v = true) (hstart : atStart? v = none) :
    step (a ++ (u ++ v)) (byteLength a) = .ok (.goOn (byteLength (a ++ u) + 1)) := by
  have hread := readAt_append (a ++ u) hv
  rw [hstart, List.append_assoc] at hread
  simp only [step, fromByte_append, hfind, ← byteLength_append, hread, bind, Except.bind, pure,
    Except.pure, Option.map_none]

theorem step_found (a : Text) (hfind : findByte? braces (u ++ v) = some (byteLength u))
    (hv : hasPrefix braces v = true) {name : Text} (hstart : atStart? v = some name) :
    step (a ++ (u ++ v)) (byteLength a) = .ok (.found (foundAt (byteLength (a ++ u)) name)) := by
  have hread := readAt_append (a ++ u) hv
  rw [hstart, List.append_assoc] at hread
  simp only [step, fromByte_append, hfind, ← byteLength_append, hread, bind, Except.bind, pure,
    Except.pure, Option.map_some]

end step

/-! ## The whole scan -/

/-- A piece that stands at a byte offset, as a scan finds it. -/
def Piece.found? (offset : Nat) : Piece → Option Found
  | plain _ => none
  | token name => some (foundAt offset name)

/-- The tokens among pieces that stand at a byte offset. -/
def foundFrom (offset : Nat) : List Piece → List Found
  | [] => []
  | p :: ps => (p.found? offset).toList ++ foundFrom (offset + byteLength p.source) ps

theorem foundFrom_plain (offset : Nat) (u : Text) (ps : List Piece) :
    foundFrom offset (u.map .plain ++ ps) = foundFrom (offset + byteLength u) ps := by
  induction u generalizing offset with
  | nil => rfl
  | cons c u ih =>
    show foundFrom (offset + (c.utf8Size + 0)) (u.map .plain ++ ps) = _
    rw [ih, byteLength, Nat.add_assoc, Nat.add_zero]

theorem scanFrom_of_finished {text : Text} {offset : Nat} (h : step text offset = .ok .finished) :
    scanFrom text offset = .ok [] := by
  rw [scanFrom]
  split <;> simp_all

theorem scanFrom_of_goOn {text : Text} {offset next : Nat}
    (h : step text offset = .ok (.goOn next)) : scanFrom text offset = scanFrom text next := by
  rw [scanFrom]
  split <;> simp_all

theorem scanFrom_of_found {text : Text} {offset : Nat} {token : Found}
    (h : step text offset = .ok (.found token)) :
    scanFrom text offset = (scanFrom text token.stop).map (token :: ·) := by
  rw [scanFrom]
  split <;> simp_all

/-- A scan that has come to the end of `a` finds the tokens among the pieces of the rest. -/
theorem scanFrom_append (a s : Text) :
    scanFrom (a ++ s) (byteLength a) = .ok (foundFrom (byteLength a) (pieces s)) := by
  induction hn : s.length using Nat.strongRecOn generalizing a s with
  | ind n ih =>
    subst hn
    rcases findByte?_cases s with ⟨hnowhere, hpieces⟩ | ⟨u, v, rfl, hfind, hv, hpieces⟩
    · have hnone := foundFrom_plain (byteLength a) s []
      rw [List.append_nil] at hnone
      rw [scanFrom_of_finished (step_finished a hnowhere), hpieces, hnone]
      rfl
    · rw [hpieces, foundFrom_plain, ← byteLength_append]
      cases hstart : atStart? v with
      | none =>
        obtain ⟨w, rfl⟩ : ∃ w, v = '\x7b' :: w := by
          obtain ⟨rest, rfl⟩ := hasPrefix_iff.1 hv
          exact ⟨_, rfl⟩
        have hrest := ih w.length (by simp; omega) (a ++ u ++ ['\x7b']) w rfl
        rw [byteLength_append, List.append_assoc, List.append_assoc] at hrest
        rw [scanFrom_of_goOn (step_goOn a hfind hv hstart), pieces_cons hstart]
        exact hrest
      | some name =>
        obtain ⟨hname, rest, rfl⟩ := atStart?_eq_some_iff.1 hstart
        have hpos : 0 < (written name).length := by simp [written, opening]
        have hshorter : rest.length < (u ++ (written name ++ rest)).length := by
          rw [List.length_append, List.length_append]
          omega
        have hrest := ih rest.length hshorter (a ++ u ++ written name) rest rfl
        rw [byteLength_append, List.append_assoc, List.append_assoc] at hrest
        rw [scanFrom_of_found (step_found a hfind hv hstart), pieces_written hname, foundAt, hrest]
        rfl

/-- A scan ends for every text, and finds the tokens among its pieces. -/
theorem scan_eq (text : Text) : scan text = .ok (foundFrom 0 (pieces text)) :=
  scanFrom_append [] text

/-- Braces that begin no token do not hide the ones inside. -/
example : scan "é\x7b\x7b \x7b\x7b post.a \x7d\x7d" = .ok [⟨"post", "a", 5, 17⟩] := by
  rw [scan_eq]
  rfl

/-! ## Occurrences -/

theorem exists_written_eq {name : Text} (h : isIdentifier name = true) :
    ∃ w, written name = '\x7b' :: '\x7b' :: ' ' :: w ∧ '\x7b' ∉ w := by
  refine ⟨scope ++ "." ++ name ++ closing, rfl, ?_⟩
  have hname : '\x7b' ∉ name := not_mem_of_isIdentifier (by decide) h
  have hscope : '\x7b' ∉ scope ++ "." := by decide
  have hclosing : '\x7b' ∉ closing := by decide
  simp only [List.mem_append, not_or] at hscope ⊢
  exact ⟨⟨hscope, hname⟩, hclosing⟩

theorem starts_behind {name other a s b : Text} (hname : isIdentifier name = true)
    (hother : isIdentifier other = true) (h : written name ++ s = a ++ (written other ++ b))
    (ha : a ≠ []) : ∃ a', a = written name ++ a' ∧ s = a' ++ (written other ++ b) := by
  rcases List.append_eq_append_iff.1 h with ⟨a', rfl, rfl⟩ | ⟨t, hwritten, ht⟩
  · exact ⟨a', rfl, rfl⟩
  · cases t with
    | nil => exact ⟨[], by rw [hwritten, List.append_nil, List.append_nil], ht.symm⟩
    | cons c t =>
      -- the other token begins with `t`, inside the first one
      exfalso
      obtain ⟨w, hw, hbrace⟩ := exists_written_eq hname
      obtain ⟨w', hw', -⟩ := exists_written_eq hother
      rw [hw'] at ht
      obtain ⟨rfl, htail⟩ := List.cons.inj ht
      rw [hw] at hwritten
      cases a with
      | nil => exact ha rfl
      | cons d a =>
        obtain ⟨rfl, hinside⟩ := List.cons.inj hwritten
        cases a with
        | nil =>
          obtain ⟨-, rfl⟩ := List.cons.inj hinside
          exact absurd (List.cons.inj htail).1 (by decide)
        | cons e a =>
          obtain ⟨-, hinside⟩ := List.cons.inj hinside
          have hmem : '\x7b' ∈ ' ' :: w := by
            rw [hinside]
            exact List.mem_append_right a List.mem_cons_self
          rcases List.mem_cons.1 hmem with hspace | hmem
          · exact absurd hspace (by decide)
          · exact hbrace hmem

theorem mem_foundFrom_iff {token : Found} (offset : Nat) (s : Text) :
    token ∈ foundFrom offset (pieces s) ↔
      ∃ name a b, isIdentifier name = true ∧ s = a ++ (written name ++ b) ∧
        token = foundAt (offset + byteLength a) name := by
  induction s using read_induction generalizing offset with
  | nil =>
    refine ⟨fun h => absurd h List.not_mem_nil, ?_⟩
    rintro ⟨name, a, b, -, h, -⟩
    have hnil := (List.append_eq_nil_iff.1 h.symm).2
    exact absurd (List.append_eq_nil_iff.1 hnil).1 (List.cons_ne_nil _ _)
  | token name s hname ih =>
    have hpieces : foundFrom offset (pieces (written name ++ s)) =
        foundAt offset name :: foundFrom (offset + byteLength (written name)) (pieces s) := by
      rw [pieces_written hname]
      rfl
    rw [hpieces, List.mem_cons, ih]
    constructor
    · rintro (rfl | ⟨other, a, b, hother, rfl, rfl⟩)
      · exact ⟨name, [], s, hname, rfl, rfl⟩
      · refine ⟨other, written name ++ a, b, hother, (List.append_assoc _ _ _).symm, ?_⟩
        rw [byteLength_append, Nat.add_assoc]
    · rintro ⟨other, a, b, hother, htext, rfl⟩
      cases a with
      | nil =>
        have hsame : some name = some other := by
          rw [← atStart?_eq_some_iff.2 ⟨hname, s, rfl⟩, htext]
          exact atStart?_eq_some_iff.2 ⟨hother, b, rfl⟩
        obtain rfl := Option.some.inj hsame
        exact .inl rfl
      | cons c a =>
        obtain ⟨a', ha, hs⟩ := starts_behind hname hother htext (List.cons_ne_nil c a)
        refine .inr ⟨other, a', b, hother, hs, ?_⟩
        rw [ha, byteLength_append, Nat.add_assoc]
  | plain c s hstart ih =>
    have hpieces : foundFrom offset (pieces (c :: s)) =
        foundFrom (offset + c.utf8Size) (pieces s) := by
      rw [pieces_cons hstart]
      rfl
    rw [hpieces, ih]
    constructor
    · rintro ⟨name, a, b, hname, rfl, rfl⟩
      exact ⟨name, c :: a, b, hname, rfl, by rw [byteLength, Nat.add_assoc]⟩
    · rintro ⟨name, a, b, hname, htext, rfl⟩
      cases a with
      | nil =>
        rw [atStart?_eq_some_iff.2 ⟨hname, b, htext⟩] at hstart
        cases hstart
      | cons d a =>
        obtain ⟨rfl, rfl⟩ := List.cons.inj htext
        exact ⟨name, a, b, hname, rfl, by rw [byteLength, Nat.add_assoc]⟩

theorem le_start_of_mem_foundFrom {offset : Nat} {ps : List Piece} {token : Found}
    (h : token ∈ foundFrom offset ps) : offset ≤ token.start := by
  induction ps generalizing offset with
  | nil => cases h
  | cons p ps ih =>
    rcases List.mem_append.1 h with hhere | hlater
    · cases p with
      | plain c => cases hhere
      | token name =>
        obtain rfl := List.mem_singleton.1 hhere
        exact Nat.le_refl offset
    · exact Nat.le_trans (Nat.le_add_right offset _) (ih hlater)

theorem pairwise_foundFrom (offset : Nat) (ps : List Piece) :
    (foundFrom offset ps).Pairwise fun a b => a.stop ≤ b.start := by
  induction ps generalizing offset with
  | nil => exact List.Pairwise.nil
  | cons p ps ih =>
    cases p with
    | plain c => exact ih _
    | token name => exact List.Pairwise.cons (fun b hb => le_start_of_mem_foundFrom hb) (ih _)

/-! ## Substitution -/

/-- Substitution replaces the tokens that a scan finds. Here the text `u` before them is kept, and
has not been written yet. -/
theorem spliceFrom_foundFrom (attrs : Attributes) (a u s : Text) :
    spliceFrom attrs (a ++ (u ++ s)) (byteLength a)
      (foundFrom (byteLength a + byteLength u) (pieces s)) = .ok (u ++ substitute attrs s) := by
  induction s using read_induction generalizing a u with
  | nil => exact fromByte_append a (u ++ [])
  | token name s hname ih =>
    have hpieces : foundFrom (byteLength a + byteLength u) (pieces (written name ++ s)) =
        foundAt (byteLength a + byteLength u) name ::
          foundFrom (byteLength a + byteLength u + byteLength (written name)) (pieces s) := by
      rw [pieces_written hname]
      rfl
    rw [hpieces, substitute_written hname, Piece.substitute, spliceFrom]
    cases hget : attrs.get? name with
    | none =>
      have hrest := ih a (u ++ written name)
      rw [byteLength_append, ← Nat.add_assoc, List.append_assoc, List.append_assoc] at hrest
      simp only [foundAt, hget]
      exact hrest
    | some values =>
      have hkept : slice (a ++ (u ++ (written name ++ s))) (byteLength a)
          (byteLength a + byteLength u) = .ok u :=
        slice_eq_ok_iff.2 ⟨a, written name ++ s, rfl, rfl, rfl⟩
      have hrest := ih (a ++ u ++ written name) []
      rw [byteLength_append, byteLength_append, List.append_assoc, List.append_assoc] at hrest
      have hbehind : spliceFrom attrs (a ++ (u ++ (written name ++ s)))
          (byteLength a + byteLength u + byteLength (written name))
          (foundFrom (byteLength a + byteLength u + byteLength (written name)) (pieces s)) =
            .ok (substitute attrs s) := hrest
      simp only [foundAt, hget, hkept, hbehind, bind, Except.bind, pure, Except.pure,
        List.append_assoc]
  | plain c s hstart ih =>
    have hpieces : foundFrom (byteLength a + byteLength u) (pieces (c :: s)) =
        foundFrom (byteLength a + byteLength u + c.utf8Size) (pieces s) := by
      rw [pieces_cons hstart]
      rfl
    have hrest := ih a (u ++ [c])
    rw [byteLength_append, ← Nat.add_assoc, List.append_assoc, List.append_assoc] at hrest
    rw [hpieces, substitute_cons hstart]
    exact hrest

theorem any_isToken_eq (offset : Nat) (ps : List Piece) :
    ps.any (·.isToken) = !(foundFrom offset ps).isEmpty := by
  induction ps generalizing offset with
  | nil => rfl
  | cons p ps ih =>
    cases p with
    | plain c => exact ih _
    | token name => rfl

/-! ## All texts -/

/-- A scan ends for every text, and finds its tokens in order and without overlap: every part of the
text that is a token is found where it stands. A text has a token if a scan finds one, and the
tokens that it finds are those that substitution replaces. -/
theorem scan_exact (text : Text) :
    ∃ tokens, scan text = .ok tokens ∧ tokens.Pairwise (fun a b => a.stop ≤ b.start) ∧
      (∀ token : Found, token ∈ tokens ↔
        token.scope ∈ scopes ∧ isIdentifier token.name = true ∧
          slice text token.start token.stop = .ok (writtenIn token.scope token.name)) ∧
      occursIn text = !tokens.isEmpty ∧
      ∀ attrs, spliceFrom attrs text 0 tokens = .ok (substitute attrs text) := by
  refine ⟨_, scan_eq text, pairwise_foundFrom 0 _, fun token => ?_, any_isToken_eq 0 _,
    fun attrs => spliceFrom_foundFrom attrs [] [] text⟩
  rw [mem_foundFrom_iff]
  constructor
  · rintro ⟨name, a, b, hname, rfl, rfl⟩
    refine ⟨List.mem_singleton.2 rfl, hname, ?_⟩
    rw [slice_eq_ok_iff]
    exact ⟨a, b, rfl, Nat.zero_add _, by simp only [foundAt, Nat.zero_add]; rfl⟩
  · obtain ⟨scope', name, start, stop⟩ := token
    rintro ⟨hscope, hname, hslice⟩
    obtain rfl : scope' = scope := List.mem_singleton.1 hscope
    obtain ⟨a, b, rfl, hstart, hstop⟩ := slice_eq_ok_iff.1 hslice
    dsimp only at hstart hstop
    refine ⟨name, a, b, hname, rfl, ?_⟩
    rw [Nat.zero_add, foundAt, hstart, hstop]
    rfl

end Document.Token

end Galley
