import Galley.Proofs.Document.LinkTarget

/-!
# The pattern of a link

A link is what the pattern `\[(.*?)\]\((.*?)(\s+".*")?\)` matches. `readings` gives all its matches at
the start of a text in the order in which a matcher that backtracks tries them: where a part may be
read in several ways, a lazy one takes few characters first and a greedy one many. The link at the
start of a text is the first of them (`head?_readings`).

`Matches` gives the successive matches in a markup. Encoding the link targets changes the targets of
these matches and nothing else (`encodeLinkTargets_frame`).
-/

namespace Galley.Document

open Text (isBlank)

namespace Link

/-! ## Readings -/

def literal (p s : Text) : List Text := (Text.dropPrefix? p s).toList

/-- Reads characters of a class, as few as possible first: what is read, and what follows. -/
def fewest (p : Char → Bool) : Text → List (Text × Text)
  | [] => [([], [])]
  | c :: s =>
    ([], c :: s) :: if p c then (fewest p s).map fun (read, rest) => (c :: read, rest) else []

/-- Reads characters of a class, as many as possible first. -/
def most (p : Char → Bool) : Text → List (Text × Text)
  | [] => [([], [])]
  | c :: s =>
    (if p c then (most p s).map fun (read, rest) => (c :: read, rest) else []) ++ [([], c :: s)]

/-- Reads at least one character of a class, as many as possible first. -/
def mostNonempty (p : Char → Bool) : Text → List (Text × Text)
  | [] => []
  | c :: s => if p c then (most p s).map fun (read, rest) => (c :: read, rest) else []

def isInLine (c : Char) : Bool := c ≠ '\n'

/-- Reads a title with the blanks before it: `\s+".*"`. -/
def titleReadings (s : Text) : List (Text × Text) :=
  (mostNonempty isBlank s).flatMap fun (blanks, s) =>
  (literal ['"'] s).flatMap fun s =>
  (most isInLine s).flatMap fun (body, s) =>
  (literal ['"'] s).map fun s => (blanks ++ '"' :: (body ++ ['"']), s)

/-- Reads the target of a link and perhaps a title: `(.*?)(\s+".*")?\)`. -/
def targetReadings (s : Text) : List (Text × Text × Text) :=
  (fewest isInLine s).flatMap fun (target, s) =>
  (titleReadings s ++ [([], s)]).flatMap fun (title, s) =>
  (literal [')'] s).map fun s => (target, title, s)

/-- Reads a link behind its opening bracket. -/
def readingsAfterBracket (s : Text) : List (Link × Text) :=
  (fewest isInLine s).flatMap fun (text, s) =>
  (literal [']', '('] s).flatMap fun s =>
  (targetReadings s).map fun (target, title, s) => (⟨text, target, title⟩, s)

/-- Reads a link at the start of a text: `\[(.*?)\]\((.*?)(\s+".*")?\)`. -/
def readings (s : Text) : List (Link × Text) := (literal ['['] s).flatMap readingsAfterBracket

/-! ## The reading tried first -/

theorem head?_literal (p s : Text) : (literal p s).head? = Text.dropPrefix? p s := by
  unfold literal
  cases Text.dropPrefix? p s <;> rfl

theorem literal_append (p q s : Text) :
    literal (p ++ q) s = (literal p s).flatMap (literal q) := by
  induction p generalizing s with
  | nil => simp [literal, Text.dropPrefix?]
  | cons c p ih =>
    cases s with
    | nil => rfl
    | cons d s =>
      by_cases hc : c = d
      · have hsame := ih s
        unfold literal at hsame ⊢
        simpa [Text.dropPrefix?, hc] using hsame
      · simp [literal, Text.dropPrefix?, hc]

/-- Where no more of a class can be read than was read, only the longest reading counts. -/
theorem flatMap_most {β : Type} {p : Char → Bool} {f : Text × Text → List β}
    (hf : ∀ read c rest, p c = true → f (read, c :: rest) = []) (s : Text) :
    (most p s).flatMap f = f (s.takeWhile p, s.dropWhile p) := by
  induction s generalizing f with
  | nil => simp [most]
  | cons c s ih =>
    cases hc : p c with
    | true =>
      have hmore := ih (f := fun x => f (c :: x.1, x.2)) fun read d rest hd => hf (c :: read) d rest hd
      simp [most, hc, hf, List.flatMap_map, hmore]
    | false => simp [most, hc]

/-- The readings of a lazy part: to read nothing is tried first. -/
theorem head?_fewest {β γ : Type} {p : Char → Bool} {f : Text × Text → List β} {c : Char} {s : Text}
    {g : β → γ} {f' : Text × Text → List γ}
    (hf : ∀ read rest, f' (c :: read, rest) = (f (read, rest)).map g) :
    ((fewest p (c :: s)).flatMap f').head? =
      (f' ([], c :: s)).head?.or
        (if p c then ((fewest p s).flatMap f).head?.map g else none) := by
  rw [fewest, List.flatMap_cons, List.head?_append]
  split
  · rw [List.flatMap_map, ← List.head?_map, List.map_flatMap]
    simp only [hf]
  · rfl

theorem head?_throughQuote (s : Text) :
    ((most isInLine s).flatMap fun (body, s) => (literal ['"'] s).flatMap fun s =>
      (literal [')'] s).map fun s => (body ++ ['"'], s)).head? = throughQuote? s := by
  induction s with
  | nil => rfl
  | cons c s ih =>
    by_cases hnewline : c = '\n'
    · subst hnewline
      rfl
    · have hline : isInLine c = true := decide_eq_true hnewline
      have hmore : (((most isInLine s).map fun (read, rest) => (c :: read, rest)).flatMap
          fun (body, s) => (literal ['"'] s).flatMap fun s =>
            (literal [')'] s).map fun s => (body ++ ['"'], s)).head? =
          (throughQuote? s).map fun (body, s) => (c :: body, s) := by
        rw [← ih, ← List.head?_map, List.map_flatMap, List.flatMap_map]
        simp only [List.map_flatMap, List.map_map, Function.comp_def, List.cons_append]
      have hhere : ((literal ['"'] (c :: s)).flatMap fun s =>
          (literal [')'] s).map fun s => (['"'], s)).head? =
            (Text.dropPrefix? ['"', ')'] (c :: s)).map fun rest => (['"'], rest) := by
        rw [← head?_literal, ← List.head?_map, show ['"', ')'] = ['"'] ++ [')'] from rfl, literal_append,
          List.map_flatMap]
      rw [most, if_pos hline, List.flatMap_append, List.head?_append, hmore,
        throughQuote?_cons hnewline, List.flatMap_singleton, ← hhere]
      rfl

theorem head?_title (s : Text) :
    ((titleReadings s).flatMap fun (title, s) => (literal [')'] s).map fun s => (title, s)).head? =
      title? s := by
  cases s with
  | nil => rfl
  | cons c s =>
    cases hc : isBlank c with
    | false => simp [titleReadings, mostNonempty, title?, hc]
    | true =>
      have hquote : ∀ d, isBlank d = true → d ≠ '"' := by
        rintro d hd rfl
        exact absurd hd (by decide)
      have hmore : mostNonempty isBlank (c :: s) =
          (most isBlank s).map fun (read, rest) => (c :: read, rest) := if_pos hc
      have hblanks : titleReadings (c :: s) =
          (literal ['"'] (s.dropWhile isBlank)).flatMap fun rest =>
            (most isInLine rest).flatMap fun (body, rest) =>
              (literal ['"'] rest).map fun rest =>
                (c :: s.takeWhile isBlank ++ '"' :: (body ++ ['"']), rest) := by
        unfold titleReadings
        rw [hmore, List.flatMap_map]
        refine (flatMap_most ?_ s).trans rfl
        intro read d rest hd
        simp [literal, Text.dropPrefix?, Ne.symm (hquote d hd)]
      unfold title?
      rw [hblanks, List.takeWhile_cons_of_pos hc, List.dropWhile_cons_of_pos hc]
      cases hrest : s.dropWhile isBlank with
      | nil => rfl
      | cons d rest =>
        by_cases hd : d = '"'
        · subst hd
          have hopen : literal ['"'] ('"' :: rest) = [rest] := rfl
          rw [hopen, List.flatMap_singleton]
          show _ = Option.map _ (throughQuote? rest)
          rw [← head?_throughQuote rest, ← List.head?_map]
          simp only [List.map_flatMap, List.flatMap_assoc, List.flatMap_map, List.map_map,
            Function.comp_def, List.cons_append]
        · simp [literal, Text.dropPrefix?, hd, Ne.symm hd]

theorem head?_ending (s : Text) :
    ((titleReadings s ++ [(([] : Text), s)]).flatMap fun (title, s) =>
      (literal [')'] s).map fun s => (title, s)).head? = ending? s := by
  rw [List.flatMap_append, List.head?_append, head?_title, List.flatMap_singleton, List.head?_map,
    head?_literal]
  rfl

theorem ite_isInLine {α : Type} (c : Char) (a b : α) :
    (if isInLine c then a else b) = if c = '\n' then b else a := by
  by_cases hc : c = '\n' <;> simp [isInLine, hc]

theorem head?_target (s : Text) : (targetReadings s).head? = target? s := by
  induction s with
  | nil => rfl
  | cons c s ih =>
    have hhere : ((titleReadings (c :: s) ++ [(([] : Text), c :: s)]).flatMap fun (title, s) =>
        (literal [')'] s).map fun s => (([] : Text), title, s)).head? =
          (ending? (c :: s)).map fun (title, rest) => ([], title, rest) := by
      rw [← head?_ending, ← List.head?_map, List.map_flatMap]
      simp only [List.map_map, Function.comp_def]
    unfold targetReadings at ih ⊢
    rw [head?_fewest (g := fun x : Text × Text × Text => (c :: x.1, x.2)), ih, target?_cons, ← hhere,
      ite_isInLine]
    intro read rest
    simp only [List.map_flatMap, List.map_map, Function.comp_def]

theorem head?_afterBracket (s : Text) : (readingsAfterBracket s).head? = afterBracket? s := by
  induction s with
  | nil => rfl
  | cons c s ih =>
    have hhere : ((literal [']', '('] (c :: s)).flatMap fun s =>
        (targetReadings s).map fun (target, title, s) => ((⟨[], target, title⟩ : Link), s)).head? =
          (Text.dropPrefix? [']', '('] (c :: s)).bind fun s =>
            (target? s).map fun (target, title, rest) => (⟨[], target, title⟩, rest) := by
      unfold literal
      cases Text.dropPrefix? [']', '('] (c :: s) with
      | none => rfl
      | some rest =>
        rw [Option.toList_some, List.flatMap_singleton, List.head?_map, head?_target]
        rfl
    unfold readingsAfterBracket at ih ⊢
    rw [head?_fewest (g := fun x : Link × Text => ({ x.1 with text := c :: x.1.text }, x.2)), ih,
      afterBracket?_cons, ← hhere, ite_isInLine]
    intro read rest
    simp only [List.map_flatMap, List.map_map, Function.comp_def]

/-- The link at the start of a text is the match that is tried first, and it goes on behind it. -/
theorem head?_readings (s : Text) :
    (readings s).head? = (atStart? s).map fun link => (link, s.drop link.source.length) := by
  cases s with
  | nil => rfl
  | cons c s =>
    by_cases hc : c = '['
    · subst hc
      have hopen : literal ['['] ('[' :: s) = [s] := rfl
      unfold readings
      rw [hopen, List.flatMap_singleton, head?_afterBracket]
      show _ = ((afterBracket? s).map (·.1)).map _
      cases hafter : afterBracket? s with
      | none => rfl
      | some found =>
        obtain ⟨link, rest⟩ := found
        obtain ⟨hs, -⟩ := eq_of_afterBracket? hafter
        have hsource : '[' :: s = link.source ++ rest := by
          rw [hs, source]
          simp
        show some (link, rest) = some (link, ('[' :: s).drop link.source.length)
        rw [hsource, List.drop_left]
    · rw [atStart?_of_ne hc]
      simp [readings, literal, Text.dropPrefix?, Ne.symm hc]

theorem readings_eq_nil_iff {s : Text} : readings s = [] ↔ atStart? s = none := by
  rw [← List.head?_eq_none_iff, head?_readings, Option.map_eq_none_iff]

theorem head?_readings_eq_some_iff {s rest : Text} {link : Link} :
    (readings s).head? = some (link, rest) ↔ s = link.source ++ rest ∧ atStart? s = some link := by
  rw [head?_readings]
  constructor
  · intro h
    obtain ⟨found, hfound, heq⟩ := Option.map_eq_some_iff.1 h
    obtain ⟨rfl, rfl⟩ := Prod.mk.inj heq
    obtain ⟨-, after, hs⟩ := exists_of_atStart? hfound
    refine ⟨?_, hfound⟩
    conv => lhs; rw [hs]
    rw [hs, List.drop_left]
  · rintro ⟨hs, hlink⟩
    rw [hlink, hs, Option.map_some, List.drop_left]

/-! ## Successive matches -/

/-- No match starts in `before` where `s` follows it. -/
def Unmatched : Text → Text → Prop
  | [], _ => True
  | c :: before, s => readings (c :: before ++ s) = [] ∧ Unmatched before s

instance decidableUnmatched : (before s : Text) → Decidable (Unmatched before s)
  | [], _ => .isTrue trivial
  | c :: before, s =>
    have := decidableUnmatched before s
    inferInstanceAs (Decidable (readings (c :: before ++ s) = [] ∧ Unmatched before s))

/-- The successive matches in a markup, each with the text before it, and the text behind the last:
a match is the leftmost one, of those the one tried first, and the next is sought behind it. -/
inductive Matches : Text → List (Text × Link) → Text → Prop
  | done {tail : Text} (hnone : Unmatched tail []) : Matches tail [] tail
  | next {before s rest tail : Text} {link : Link} {links : List (Text × Link)}
      (hbefore : Unmatched before s) (hlink : (readings s).head? = some (link, rest))
      (hrest : Matches rest links tail) : Matches (before ++ s) ((before, link) :: links) tail

def written (links : List (Text × Link)) (tail : Text) : Text :=
  links.flatMap (fun (before, link) => before ++ link.source) ++ tail

theorem written_cons (before : Text) (link : Link) (links : List (Text × Link)) (tail : Text) :
    written ((before, link) :: links) tail = before ++ (link.source ++ written links tail) := by
  simp [written]

theorem exists_matches (markup : Text) : ∃ links tail, Matches markup links tail := by
  induction markup using read_induction with
  | nil => exact ⟨[], [], .done trivial⟩
  | link link rest hlink ih =>
    obtain ⟨links, tail, hrest⟩ := ih
    exact ⟨([], link) :: links, tail,
      @Matches.next [] _ _ _ _ _ trivial (head?_readings_eq_some_iff.2 ⟨rfl, hlink⟩) hrest⟩
  | plain c s hplain ih =>
    have hnone := readings_eq_nil_iff.2 hplain
    obtain ⟨links, tail, hmatches⟩ := ih
    cases hmatches with
    | done hrest => exact ⟨[], c :: s, .done ⟨by rwa [List.append_nil], hrest⟩⟩
    | @next before _ _ _ link links hbefore hlink hrest =>
      exact ⟨(c :: before, link) :: links, tail,
        @Matches.next (c :: before) _ _ _ _ _ ⟨hnone, hbefore⟩ hlink hrest⟩

theorem encoded_eq_self {link : Link} (h : ∀ c ∈ link.target, isBlank c = false) :
    link.encoded = link := by
  have htrimmed : Text.Trimmed link.target :=
    ⟨fun c hc => h c (List.mem_of_head? hc), fun c hc => h c (List.mem_of_getLast? hc)⟩
  have hspace : ' ' ∉ link.target := fun hmem => absurd (h ' ' hmem) (by decide)
  rw [encoded_eq, encodeTarget_eq_self htrimmed hspace]

end Link

open Link

theorem encodeLinkTargets_append_of_unmatched {before s : Text} (h : Unmatched before s) :
    encodeLinkTargets (before ++ s) = before ++ encodeLinkTargets s := by
  induction before with
  | nil => rfl
  | cons c before ih =>
    obtain ⟨hnone, hbefore⟩ := h
    have hplain : atStart? (c :: (before ++ s)) = none := readings_eq_nil_iff.1 hnone
    rw [List.cons_append, encodeLinkTargets_cons hplain, ih hbefore, List.cons_append]

namespace Link.Matches

variable {markup tail : Text} {links : List (Text × Link)}

theorem eq_written (h : Matches markup links tail) : markup = written links tail := by
  induction h with
  | done => rfl
  | next hbefore hlink hrest ih =>
    rw [written_cons, ← ih, ← (head?_readings_eq_some_iff.1 hlink).1]

theorem encodeLinkTargets_eq (h : Matches markup links tail) :
    encodeLinkTargets markup =
      written (links.map fun (before, link) => (before, link.encoded)) tail := by
  induction h with
  | @done tail hnone =>
    have hsame := encodeLinkTargets_append_of_unmatched hnone
    rw [List.append_nil] at hsame
    exact hsame.trans (List.append_nil _)
  | next hbefore hlink hrest ih =>
    obtain ⟨rfl, hstart⟩ := head?_readings_eq_some_iff.1 hlink
    rw [List.map_cons, written_cons, ← ih, encodeLinkTargets_append_of_unmatched hbefore,
      encodeLinkTargets_source hstart]

end Link.Matches

/-- A markup has successive matches, and only their targets change: each is trimmed, and its spaces are
encoded. No newline comes or goes, and where no target holds a blank nothing changes. -/
theorem encodeLinkTargets_frame (markup : Text) :
    (∃ links tail, Matches markup links tail) ∧
    ∀ links tail, Matches markup links tail →
      markup = written links tail ∧
      encodeLinkTargets markup = written (links.map fun (before, link) =>
        (before, { link with target := Text.replace " " "%20" (Text.trim link.target) })) tail ∧
      (encodeLinkTargets markup).count '\n' = markup.count '\n' ∧
      ((∀ found ∈ links, ∀ c ∈ found.2.target, isBlank c = false) →
        encodeLinkTargets markup = markup) := by
  refine ⟨exists_matches markup, fun links tail hmatches => ?_⟩
  refine ⟨hmatches.eq_written, hmatches.encodeLinkTargets_eq, count_encodeLinkTargets markup, ?_⟩
  intro hblank
  have hsame : links.map (fun (before, link) => (before, link.encoded)) = links := by
    conv => rhs; rw [← List.map_id links]
    refine List.map_congr_left fun found hfound => ?_
    show (found.1, found.2.encoded) = found
    rw [encoded_eq_self (hblank found hfound)]
  rw [hmatches.encodeLinkTargets_eq, hsame, ← hmatches.eq_written]

/-- Two links on a line with a title on each: the first title runs to the last quote before a `)`, so there
is one match, and the target of the second link is no target. -/
theorem encodeLinkTargets_frame_twoTitles :
    Matches "[a](b c \"s\") [d](e f \"g\")\n"
      [([], ⟨['a'], "b c", " \"s\") [d](e f \"g\""⟩)] ['\n'] ∧
    encodeLinkTargets "[a](b c \"s\") [d](e f \"g\")\n" = "[a](b%20c \"s\") [d](e f \"g\")\n" := by
  have hmatches : Matches "[a](b c \"s\") [d](e f \"g\")\n"
      [([], ⟨['a'], "b c", " \"s\") [d](e f \"g\""⟩)] ['\n'] :=
    @Matches.next [] _ _ _ _ _ trivial (by decide +kernel) (.done (by decide +kernel))
  exact ⟨hmatches, ((encodeLinkTargets_frame _).2 _ _ hmatches).2.1.trans (by decide +kernel)⟩

end Galley.Document
