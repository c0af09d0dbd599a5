import Galley.Document.Token
import Galley.Proofs.Text

/-!
# Substituting tokens

A token stands within a line, and so does what it is replaced by, whatever the values of its
attribute. So substitution keeps the newlines of a text.
-/

namespace Galley

theorem Text.not_mem_joinWith {c : Char} {sep : Text} {ts : List Text} (hsep : c ∉ sep)
    (hts : ∀ t ∈ ts, c ∉ t) : c ∉ Text.joinWith sep ts := by
  induction ts with
  | nil => exact List.not_mem_nil
  | cons t ts ih =>
    rw [List.forall_mem_cons] at hts
    cases ts with
    | nil => exact hts.1
    | cons u ts =>
      have hrest := ih hts.2
      simp only [Text.joinWith, List.mem_append, not_or]
      exact ⟨⟨hts.1, hsep⟩, hrest⟩

namespace Document.Token

/-! ## Tokens -/

theorem atStart?_eq_some_iff {s name : Text} :
    atStart? s = some name ↔ isIdentifier name = true ∧ ∃ rest, s = written name ++ rest := by
  constructor
  · intro h
    obtain ⟨rest, hrest, h⟩ := Option.bind_eq_some_iff.1 h
    simp only at h
    split at h
    · cases h
    · next hne =>
      split at h
      · next hclosing =>
        obtain rfl := Option.some.inj h
        obtain ⟨after, hafter⟩ := Text.hasPrefix_iff.1 hclosing
        have hall : (rest.takeWhile isNameChar).all isNameChar = true := List.all_takeWhile
        refine ⟨by simp [isIdentifier, hne, hall], after, ?_⟩
        rw [Text.dropPrefix?_eq_some_iff.1 hrest, written, List.append_assoc, List.append_assoc,
          ← hafter, List.takeWhile_append_dropWhile]
      · cases h
  · rintro ⟨hname, rest, rfl⟩
    obtain ⟨hne, hall⟩ : name ≠ [] ∧ ∀ c ∈ name, isNameChar c = true := by
      simpa [isIdentifier] using hname
    have hopening : Text.dropPrefix? opening (written name ++ rest) =
        some (name ++ (closing ++ rest)) := by
      rw [Text.dropPrefix?_eq_some_iff, written, List.append_assoc, List.append_assoc]
    -- the blank that begins the closing ends the name
    have hstop : (closing ++ rest).takeWhile isNameChar = [] ∧
        (closing ++ rest).dropWhile isNameChar = closing ++ rest := ⟨rfl, rfl⟩
    have htake : (name ++ (closing ++ rest)).takeWhile isNameChar = name := by
      rw [List.takeWhile_append_of_pos hall, hstop.1, List.append_nil]
    have hdrop : (name ++ (closing ++ rest)).dropWhile isNameChar = closing ++ rest := by
      rw [List.dropWhile_append_of_pos hall, hstop.2]
    have hclosing : Text.hasPrefix closing (closing ++ rest) = true :=
      Text.hasPrefix_iff.2 ⟨rest, rfl⟩
    rw [atStart?, hopening]
    show (if ((name ++ (closing ++ rest)).takeWhile isNameChar).isEmpty then none else _) = _
    rw [htake, if_neg (by simpa using hne), hdrop, if_pos hclosing]

/-! ## Values -/

/-- The characters that no written value holds: a newline would break its line, a brace could
begin a token, and brackets and quotes are markup. -/
def unwritten : Text := "\n\x7b<>'\""

/-- Those that do not stand in the markup around values either. -/
def absent : Text := "\n\x7b"

section absent

variable {x : Char} {name : Text}

theorem forall_absent {P : Char → Prop} (hnewline : P '\n') (hbrace : P '\x7b') :
    ∀ x ∈ absent, P x := by
  show ∀ x ∈ ['\n', '\x7b'], P x
  rw [List.forall_mem_cons, List.forall_mem_singleton]
  exact ⟨hnewline, hbrace⟩

theorem mem_unwritten_of_mem_absent (hx : x ∈ absent) : x ∈ unwritten :=
  forall_absent (P := (· ∈ unwritten)) (by decide) (by decide) x hx

theorem not_mem_of_isIdentifier (hx : x ∈ absent) (h : isIdentifier name = true) : x ∉ name := by
  have hall : name.all isNameChar = true := (Bool.and_eq_true_iff.1 h).2
  have hchars : ∀ c ∈ absent, isNameChar c = false := forall_absent (by decide) (by decide)
  intro hmem
  rw [List.all_eq_true] at hall
  exact Bool.false_ne_true ((hchars x hx).symm.trans (hall x hmem))

theorem not_mem_of_unwritten {s : Text} (hx : x ∈ unwritten)
    (h : unwritten.all (!s.contains ·) = true) : x ∉ s := by
  have hnone := List.all_eq_true.1 h x hx
  rwa [Bool.not_eq_true', List.contains_eq_mem, decide_eq_false_iff_not] at hnone

theorem not_mem_valueChar (hx : x ∈ unwritten) (c : Char) : x ∉ valueChar c := by
  unfold valueChar
  split
  · exact not_mem_of_unwritten hx (by decide)
  split
  · exact not_mem_of_unwritten hx (by decide)
  split
  · exact not_mem_of_unwritten hx (by decide)
  split
  · exact not_mem_of_unwritten hx (by decide)
  split
  · exact not_mem_of_unwritten hx (by decide)
  split
  · exact not_mem_of_unwritten hx (by decide)
  split
  · exact not_mem_of_unwritten hx (by decide)
  split
  · exact not_mem_of_unwritten hx (by decide)
  · next hlt hgt hquote hapostrophe hbrace _ hnewline =>
    rw [List.mem_singleton]
    rintro rfl
    have hcases : x = '\n' ∨ x = '\x7b' ∨ x = '<' ∨ x = '>' ∨ x = '\'' ∨ x = '"' := by
      have hlisted : x ∈ ['\n', '\x7b', '<', '>', '\'', '"'] := hx
      simpa only [List.mem_cons, List.not_mem_nil, or_false] using hlisted
    rcases hcases with h | h | h | h | h | h
    · exact hnewline h
    · exact hbrace h
    · exact hlt h
    · exact hgt h
    · exact hapostrophe h
    · exact hquote h

theorem not_mem_dashRun (hx : x ∈ unwritten) (n : Nat) : x ∉ dashRun n := by
  unfold dashRun
  split
  · exact not_mem_of_unwritten hx (by decide)
  split
  · exact not_mem_of_unwritten hx (by decide)
  · have hdash : x ∉ ['-'] := not_mem_of_unwritten hx (by decide)
    exact fun hmem => hdash (List.mem_singleton.2 (List.eq_of_mem_replicate hmem))

theorem not_mem_convertDashesFrom (hx : x ∈ unwritten) {s : Text} (h : x ∉ s) (run : Nat) :
    x ∉ convertDashesFrom run s := by
  induction s generalizing run with
  | nil => exact not_mem_dashRun hx run
  | cons c s ih =>
    obtain ⟨hc, hs⟩ : x ≠ c ∧ x ∉ s := by simpa using h
    rw [convertDashesFrom]
    split
    · exact ih hs (run + 1)
    · simp only [List.mem_append, List.mem_cons, not_or]
      exact ⟨not_mem_dashRun hx run, hc, ih hs 0⟩

theorem not_mem_valueHtml (hx : x ∈ unwritten) (value : Text) : x ∉ valueHtml value := by
  intro h
  refine not_mem_convertDashesFrom hx ?_ 0 (Text.mem_of_mem_trim h)
  intro hmem
  obtain ⟨c, -, hc⟩ := List.mem_flatMap.1 hmem
  exact not_mem_valueChar hx c hc

theorem not_mem_attributeHtml (hx : x ∈ absent) (h : x ∉ name) (values : List Text) :
    x ∉ attributeHtml name values := by
  have hfixed : ∀ x ∈ absent, x ∉ scope ∧ x ∉ ("<span class='" : Text) ∧ x ∉ ("-item-" : Text) ∧
      x ∉ ("'>" : Text) ∧ x ∉ ("</span>" : Text) ∧ x ∉ ("-delimiter-" : Text) ∧
      x ∉ (" delimiter'></span>" : Text) := forall_absent (by decide) (by decide)
  obtain ⟨hscope, hopen, hitem, hend, hclose, hbetween, hlast⟩ := hfixed x hx
  have hitems : ∀ value, x ∉ itemHtml name value := by
    intro value
    have hvalue := not_mem_valueHtml (mem_unwritten_of_mem_absent hx) value
    unfold itemHtml
    simp only [List.mem_append, not_or]
    exact ⟨⟨⟨⟨⟨⟨hopen, hscope⟩, hitem⟩, h⟩, hend⟩, hvalue⟩, hclose⟩
  have hdelimiter : x ∉ delimiterHtml name := by
    unfold delimiterHtml
    simp only [List.mem_append, not_or]
    exact ⟨⟨⟨⟨hopen, hscope⟩, hbetween⟩, h⟩, hlast⟩
  refine Text.not_mem_joinWith hdelimiter fun t ht => ?_
  obtain ⟨value, -, rfl⟩ := List.mem_map.1 ht
  exact hitems value

end absent

/-! ## Substitution -/

theorem newline_not_mem_written {name : Text} (h : '\n' ∉ name) : '\n' ∉ written name := by
  have hopening : '\n' ∉ opening := by decide
  have hclosing : '\n' ∉ closing := by decide
  simp only [written, List.mem_append, not_or]
  exact ⟨⟨hopening, h⟩, hclosing⟩

theorem newline_not_mem_substitute {name : Text} (h : '\n' ∉ name) (attrs : Attributes) :
    '\n' ∉ (Piece.token name).substitute attrs := by
  unfold Piece.substitute
  simp only
  split
  · exact not_mem_attributeHtml (by decide) h _
  · exact newline_not_mem_written h

theorem count_substitute_piecesFrom (attrs : Attributes) (skip : Nat) (s : Text) :
    ((piecesFrom skip s).flatMap (·.substitute attrs)).count '\n' = (s.drop skip).count '\n' := by
  induction s generalizing skip with
  | nil => cases skip <;> rfl
  | cons c s ih =>
    cases skip with
    | succ skip => exact ih skip
    | zero =>
      rw [piecesFrom]
      cases hname : atStart? (c :: s) with
      | some name =>
        obtain ⟨hidentifier, rest, hrest⟩ := atStart?_eq_some_iff.1 hname
        have hnewline : '\n' ∉ name := not_mem_of_isIdentifier (by decide) hidentifier
        have hwritten := List.count_eq_zero.2 (newline_not_mem_written hnewline)
        have hhtml := List.count_eq_zero.2 (newline_not_mem_substitute hnewline attrs)
        have hne : written name ≠ [] := List.append_ne_nil_of_right_ne_nil _ (by decide)
        rw [List.flatMap_cons, List.count_append, hhtml, ih,
          Text.drop_of_cons_eq_append hne hrest, List.drop_zero, hrest, List.count_append, hwritten]
      | none =>
        have hplain : (Piece.plain c).substitute attrs = [c] := rfl
        rw [List.flatMap_cons, List.count_append, hplain, ih, List.drop_zero, List.drop_zero,
          ← List.count_append, List.singleton_append]

theorem count_substitute (attrs : Attributes) (s : Text) :
    (substitute attrs s).count '\n' = s.count '\n' :=
  count_substitute_piecesFrom attrs 0 s

end Document.Token

end Galley
