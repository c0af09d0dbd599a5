import Galley.Proofs.Toc.Rewriting

/-!
# Fences by the rule of CommonMark

By the rule of CommonMark a fence is indented by at most three spaces, and no backtick follows a
fence of backticks on its line. The open fence that is kept from line to line goes by a simpler rule,
which takes more lines for fences: `Fence.isMisread` tells which. A line that is read right leaves the
same fence open by both rules, and a misread one opens or closes a fence by the simpler rule only. So
both rules agree on which lines stand in a fence exactly if no line is misread
(`Toc.inFence_agrees_iff`), and then a marker line is rewritten exactly if it stands in none.
-/

namespace Galley

open Text (isBlank trimStart)

namespace Fence

/-! ## The rule -/

def Opens (fence : Fence) (line : Text) : Prop :=
  ∃ k ≤ 3, ∃ info : Text,
    line = List.replicate k ' ' ++ (List.replicate fence.length fence.char ++ info) ∧
      3 ≤ fence.length ∧ (fence.char = '`' ∨ fence.char = '~') ∧ info.head? ≠ some fence.char ∧
      (fence.char = '`' → '`' ∉ info)

def Closes (fence : Fence) (line : Text) : Prop :=
  ∃ k ≤ 3, ∃ n ≥ fence.length, ∃ rest : Text,
    line = List.replicate k ' ' ++ (List.replicate n fence.char ++ rest) ∧
      rest.all isBlank = true

/-- Behind the line the second fence is open, if the first one is open in front of it. -/
inductive Follows : Option Fence → Text → Option Fence → Prop
  | opens {fence : Fence} {line : Text} (h : fence.Opens line) : Follows none line (some fence)
  | text {line : Text} (h : ∀ fence : Fence, ¬ fence.Opens line) : Follows none line none
  | closes {fence : Fence} {line : Text} (h : fence.Closes line) : Follows (some fence) line none
  | code {fence : Fence} {line : Text} (h : ¬ fence.Closes line) :
    Follows (some fence) line (some fence)

/-- Behind the lines the second fence is open, if the first one is open in front of them. -/
def FollowsAll (fence : Option Fence) : List Text → Option Fence → Prop
  | [], fence' => fence' = fence
  | line :: lines, fence' => ∃ between, Follows fence line between ∧ FollowsAll between lines fence'

/-! ## Lines that are misread -/

/-- Whether the line is indented by at most three spaces. -/
def isShallow (line : Text) : Bool :=
  let indent := line.takeWhile isBlank
  indent.length ≤ 3 && indent.all (· = ' ')

/-- Whether the line opens or closes a fence only if indentation and further backticks do not
matter. -/
def isMisread (fence : Option Fence) (line : Text) : Bool :=
  match fence with
  | none =>
    (ofLine? line).any fun opened =>
      !isShallow line || opened.char = '`' && opened.length < line.count '`'
  | some fence => fence.closedBy line && !isShallow line

/-- Whether no line is misread, if the fence is open in front of them. -/
def isReadRight (fence : Option Fence) : List Text → Bool
  | [] => true
  | line :: lines => !isMisread fence line && isReadRight (afterLine fence line) lines

/-! ## Runs at the start of a line -/

section runs

variable {c : Char} {s rest line : Text} {n : Nat}

theorem runLength_replicate_append (hrest : rest.head? ≠ some c) (n : Nat) :
    runLength c (List.replicate n c ++ rest) = n := by
  have hnone : rest.takeWhile (· == c) = [] := by
    cases rest with
    | nil => rfl
    | cons d rest =>
      have hd : d ≠ c := by simpa using hrest
      simp [hd]
  rw [runLength, List.takeWhile_append_of_pos (by simp), hnone]
  simp

theorem drop_runLength (c : Char) (s : Text) :
    s.drop (runLength c s) = s.dropWhile (· == c) := by
  conv => lhs; arg 2; rw [← List.takeWhile_append_dropWhile (p := (· == c)) (l := s)]
  exact List.drop_left

theorem replicate_runLength_append (c : Char) (s : Text) :
    List.replicate (runLength c s) c ++ s.drop (runLength c s) = s := by
  have hrun : s.takeWhile (· == c) = List.replicate (runLength c s) c := by
    refine List.eq_replicate_iff.2 ⟨rfl, fun d hd => ?_⟩
    simpa using List.all_eq_true.1 (List.all_takeWhile (p := (· == c))) d hd
  rw [drop_runLength, ← hrun, List.takeWhile_append_dropWhile]

theorem head?_drop_runLength (c : Char) (s : Text) :
    (s.drop (runLength c s)).head? ≠ some c := by
  intro h
  rw [drop_runLength] at h
  have hne := Text.head?_dropWhile (Option.mem_def.2 h)
  simp at hne

theorem isShallow_iff :
    isShallow line = true ↔ ∃ k ≤ 3, line = List.replicate k ' ' ++ trimStart line := by
  have hsplit : line.takeWhile isBlank ++ trimStart line = line := List.takeWhile_append_dropWhile
  constructor
  · intro h
    simp only [isShallow, Bool.and_eq_true, decide_eq_true_eq, List.all_eq_true] at h
    refine ⟨_, h.1, ?_⟩
    rw [← List.eq_replicate_iff.2 ⟨rfl, h.2⟩, hsplit]
  · rintro ⟨k, hk, hline⟩
    have hindent : line.takeWhile isBlank = List.replicate k ' ' :=
      List.append_cancel_right (hsplit.trans hline)
    simp [isShallow, hindent, hk]

theorem trimStart_run (hc : isBlank c = false) (hn : 0 < n) {k : Nat}
    (hline : line = List.replicate k ' ' ++ (List.replicate n c ++ rest)) :
    trimStart line = List.replicate n c ++ rest := by
  have hspace : isBlank ' ' = true := by decide
  obtain ⟨m, rfl⟩ := Nat.exists_eq_add_of_lt hn
  rw [hline, trimStart, List.dropWhile_append_of_pos (by simp [hspace])]
  simp [List.replicate_succ, hc]

end runs

/-! ## One line -/

variable {fence : Fence} {line : Text}

theorem ofLine?_eq_some_iff : ofLine? line = some fence ↔
    3 ≤ fence.length ∧ (fence.char = '`' ∨ fence.char = '~') ∧
      runLength fence.char (trimStart line) = fence.length := by
  unfold ofLine?
  cases hstart : trimStart line with
  | nil =>
    have hnone : runLength fence.char [] = 0 := rfl
    simp only [hnone, reduceCtorEq, false_iff]
    omega
  | cons c s =>
    constructor
    · intro h
      dsimp only at h
      split at h
      · next hchar =>
        split at h
        · next hlength =>
          obtain rfl := Option.some.inj h
          exact ⟨hlength, hchar, rfl⟩
        · cases h
      · cases h
    · rintro ⟨hlength, hchar, hrun⟩
      by_cases hc : c = fence.char
      · subst hc
        simp only [hchar, if_true, hrun, hlength]
      · have hnone : runLength fence.char (c :: s) = 0 := by simp [runLength, hc]
        omega

theorem closedBy_iff : fence.closedBy line = true ↔
    0 < runLength fence.char (trimStart line) ∧
      fence.length ≤ runLength fence.char (trimStart line) ∧
      ((trimStart line).drop (runLength fence.char (trimStart line))).all isBlank = true := by
  simp [closedBy, and_assoc]

theorem isBlank_char_eq_false (h : fence.char = '`' ∨ fence.char = '~') :
    isBlank fence.char = false := by
  rcases h with h | h <;> rw [h] <;> decide

theorem count_backtick {k n : Nat} {info : Text} :
    (List.replicate k ' ' ++ (List.replicate n '`' ++ info)).count '`' = n + info.count '`' := by
  simp [List.count_replicate]

theorem opens_iff :
    fence.Opens line ↔ ofLine? line = some fence ∧ isMisread none line = false := by
  constructor
  · rintro ⟨k, hk, info, hline, hlength, hchar, hhead, hinfo⟩
    have htrim := trimStart_run (isBlank_char_eq_false hchar) (by omega) hline
    have hopened : ofLine? line = some fence := by
      rw [ofLine?_eq_some_iff, htrim]
      exact ⟨hlength, hchar, runLength_replicate_append hhead _⟩
    have hshallow : isShallow line = true := by
      rw [isShallow_iff, htrim]
      exact ⟨k, hk, hline⟩
    refine ⟨hopened, ?_⟩
    by_cases hback : fence.char = '`'
    · have hcount : line.count '`' = fence.length := by
        rw [hline, hback, count_backtick, List.count_eq_zero.2 (hinfo hback), Nat.add_zero]
      simp [isMisread, hopened, hshallow, hcount]
    · simp [isMisread, hopened, hshallow, hback]
  · rintro ⟨hopened, hread⟩
    have hread : isShallow line = true ∧ (fence.char = '`' → line.count '`' ≤ fence.length) := by
      simpa [isMisread, hopened] using hread
    obtain ⟨hlength, hchar, hrun⟩ := ofLine?_eq_some_iff.1 hopened
    obtain ⟨k, hk, hline⟩ := isShallow_iff.1 hread.1
    have hsplit := replicate_runLength_append fence.char (trimStart line)
    have hhead := head?_drop_runLength fence.char (trimStart line)
    rw [hrun] at hsplit hhead
    rw [← hsplit] at hline
    refine ⟨k, hk, _, hline, hlength, hchar, hhead, fun hback => ?_⟩
    have hcount := hread.2 hback
    rw [hline, hback, count_backtick] at hcount
    rw [← List.count_eq_zero]
    omega

theorem closes_iff (hchar : isBlank fence.char = false) (hlength : 0 < fence.length) :
    fence.Closes line ↔ fence.closedBy line = true ∧ isMisread (some fence) line = false := by
  have hmisread : isMisread (some fence) line = (fence.closedBy line && !isShallow line) := rfl
  constructor
  · rintro ⟨k, hk, n, hn, rest, hline, hrest⟩
    have htrim := trimStart_run hchar (by omega) hline
    have hhead : rest.head? ≠ some fence.char := by
      intro h
      have hblank := List.all_eq_true.1 hrest _ (List.mem_of_head? h)
      rw [hchar] at hblank
      cases hblank
    have hclosed : fence.closedBy line = true := by
      have hdrop : (List.replicate n fence.char ++ rest).drop n = rest := by simp
      rw [closedBy_iff, htrim, runLength_replicate_append hhead, hdrop]
      exact ⟨by omega, hn, hrest⟩
    have hshallow : isShallow line = true := by
      rw [isShallow_iff, htrim]
      exact ⟨k, hk, hline⟩
    simp [hmisread, hclosed, hshallow]
  · rintro ⟨hclosed, hread⟩
    have hshallow : isShallow line = true := by simpa [hmisread, hclosed] using hread
    obtain ⟨-, hn, hrest⟩ := closedBy_iff.1 hclosed
    obtain ⟨k, hk, hline⟩ := isShallow_iff.1 hshallow
    rw [← replicate_runLength_append fence.char (trimStart line)] at hline
    exact ⟨k, hk, _, hn, _, hline, hrest⟩

/-! ## Lines in turn -/

/-- An open fence is one that a line can open. -/
def IsProper (fence? : Option Fence) : Prop :=
  ∀ fence, fence? = some fence → isBlank fence.char = false ∧ 0 < fence.length

variable {fence? fence?' fence?'' : Option Fence} {lines : List Text}

theorem isProper_none : IsProper none := fun _ h => by cases h

theorem isProper_afterLine (h : IsProper fence?) (line : Text) : IsProper (afterLine fence? line) := by
  intro fence hfence
  cases fence? with
  | none =>
    obtain ⟨hlength, hchar, -⟩ := ofLine?_eq_some_iff.1 hfence
    exact ⟨isBlank_char_eq_false hchar, by omega⟩
  | some opened =>
    refine h fence ?_
    by_cases hclosed : opened.closedBy line = true
    · simp [afterLine, hclosed] at hfence
    · simpa [afterLine, hclosed] using hfence

theorem follows_afterLine (hproper : IsProper fence?) (h : isMisread fence? line = false) :
    Follows fence? line (afterLine fence? line) := by
  cases fence? with
  | none =>
    cases hopened : ofLine? line with
    | none =>
      have hafter : afterLine none line = none := hopened
      rw [hafter]
      refine .text fun fence hopens => ?_
      rw [opens_iff, hopened] at hopens
      cases hopens.1
    | some fence =>
      have hafter : afterLine none line = some fence := hopened
      rw [hafter]
      exact .opens (opens_iff.2 ⟨hopened, h⟩)
  | some fence =>
    obtain ⟨hchar, hlength⟩ := hproper fence rfl
    have hcloses : fence.Closes line ↔ fence.closedBy line = true := by
      rw [closes_iff hchar hlength, and_iff_left h]
    by_cases hclosed : fence.closedBy line = true
    · have hafter : afterLine (some fence) line = none := if_pos hclosed
      rw [hafter]
      exact .closes (hcloses.2 hclosed)
    · have hafter : afterLine (some fence) line = some fence := if_neg hclosed
      rw [hafter]
      exact .code fun hline => hclosed (hcloses.1 hline)

/-- A misread line opens no fence and closes none by the rule, but it is taken to. -/
theorem follows_of_isMisread (hproper : IsProper fence?) (h : isMisread fence? line = true) :
    Follows fence? line fence? ∧ (afterLine fence? line).isSome = !fence?.isSome := by
  cases fence? with
  | none =>
    obtain ⟨fence, hopened, -⟩ := (Option.any_eq_true _ _).1 h
    refine ⟨.text fun other hopens => ?_, ?_⟩
    · rw [opens_iff, h] at hopens
      cases hopens.2
    · have hafter : afterLine none line = some fence := hopened
      rw [hafter]
      rfl
  | some fence =>
    obtain ⟨hchar, hlength⟩ := hproper fence rfl
    refine ⟨.code fun hcloses => ?_, ?_⟩
    · rw [closes_iff hchar hlength, h] at hcloses
      cases hcloses.2
    · have hclosed : fence.closedBy line = true := by
        rw [isMisread, Bool.and_eq_true] at h
        exact h.1
      have hafter : afterLine (some fence) line = none := if_pos hclosed
      rw [hafter]
      rfl

theorem Follows.unique (h : Follows fence? line fence?') (h' : Follows fence? line fence?'') :
    fence?' = fence?'' := by
  cases h with
  | opens hopens =>
    cases h' with
    | opens hopens' => exact (opens_iff.1 hopens).1.symm.trans (opens_iff.1 hopens').1
    | text hnone => exact absurd hopens (hnone _)
  | text hnone =>
    cases h' with
    | opens hopens => exact absurd hopens (hnone _)
    | text _ => rfl
  | closes hcloses =>
    cases h' with
    | closes _ => rfl
    | code hnot => exact absurd hcloses hnot
  | code hnot =>
    cases h' with
    | closes hcloses => exact absurd hcloses hnot
    | code _ => rfl

theorem exists_followsAll (hproper : IsProper fence?) (lines : List Text) :
    ∃ fence?', IsProper fence?' ∧ FollowsAll fence? lines fence?' := by
  induction lines generalizing fence? with
  | nil => exact ⟨fence?, hproper, rfl⟩
  | cons line lines ih =>
    cases hread : isMisread fence? line with
    | false =>
      obtain ⟨fence?', hproper', hrest⟩ := ih (isProper_afterLine hproper line)
      exact ⟨fence?', hproper', _, follows_afterLine hproper hread, hrest⟩
    | true =>
      obtain ⟨fence?', hproper', hrest⟩ := ih hproper
      exact ⟨fence?', hproper', _, (follows_of_isMisread hproper hread).1, hrest⟩

theorem FollowsAll.unique (h : FollowsAll fence? lines fence?')
    (h' : FollowsAll fence? lines fence?'') : fence?' = fence?'' := by
  induction lines generalizing fence? with
  | nil => exact Eq.trans h (Eq.symm h')
  | cons line lines ih =>
    obtain ⟨between, hline, hrest⟩ := h
    obtain ⟨between', hline', hrest'⟩ := h'
    obtain rfl := hline.unique hline'
    exact ih hrest hrest'

theorem followsAll_foldl (hproper : IsProper fence?) (h : isReadRight fence? lines = true) :
    FollowsAll fence? lines (lines.foldl afterLine fence?) := by
  induction lines generalizing fence? with
  | nil => rfl
  | cons line lines ih =>
    rw [isReadRight, Bool.and_eq_true, Bool.not_eq_true'] at h
    exact ⟨_, follows_afterLine hproper h.1, ih (isProper_afterLine hproper line) h.2⟩

/-- The rule agrees on which lines stand in a fence exactly if no line is misread: the first misread
line opens or closes a fence that the rule does not. -/
theorem forall_isSome_iff (hproper : IsProper fence?) :
    (∀ before, before <+: lines → ∀ fence?', FollowsAll fence? before fence?' →
      (before.foldl afterLine fence?).isSome = fence?'.isSome) ↔
      isReadRight fence? lines = true := by
  induction lines generalizing fence? with
  | nil =>
    refine iff_of_true (fun before hbefore fence?' h => ?_) rfl
    obtain rfl := List.prefix_nil.1 hbefore
    rw [show fence?' = fence? from h]
    rfl
  | cons line lines ih =>
    rw [isReadRight, Bool.and_eq_true, Bool.not_eq_true', ← ih (isProper_afterLine hproper line)]
    constructor
    · intro hagree
      have hread : isMisread fence? line = false := by
        rw [← Bool.not_eq_true]
        intro hmisread
        -- behind the misread line the rule has the fence from before it, and the other rule has not
        obtain ⟨hsame, hflipped⟩ := follows_of_isMisread hproper hmisread
        have hline := hagree [line] (List.prefix_append [line] lines) fence? ⟨_, hsame, rfl⟩
        have hboth : (afterLine fence? line).isSome = fence?.isSome := hline
        rw [hboth] at hflipped
        exact (Bool.eq_not_self _).1 hflipped
      refine ⟨hread, fun before hbefore fence?' h => ?_⟩
      exact hagree (line :: before) ((List.prefix_cons_inj line).2 hbefore) fence?'
        ⟨_, follows_afterLine hproper hread, h⟩
    · rintro ⟨hread, hagree⟩ before hbefore fence?' h
      cases before with
      | nil =>
        rw [show fence?' = fence? from h]
        rfl
      | cons first before =>
        obtain ⟨rfl, htail⟩ := List.cons_prefix_cons.1 hbefore
        obtain ⟨between, hline, hrest⟩ := h
        obtain rfl := hline.unique (follows_afterLine hproper hread)
        exact hagree before htail fence?' hrest

end Fence

/-! ## Marker lines -/

namespace Toc

open Fence (FollowsAll afterLine isReadRight)

/-- Which lines stand in a fence agrees with the rule exactly if no line is misread; and a marker
line behind lines that are read right is rewritten if no fence is open by the rule, and kept
otherwise. -/
theorem inFence_agrees_iff (lines : List Text) :
    (∃ fence?, FollowsAll none lines fence? ∧ ∀ other, FollowsAll none lines other → other = fence?) ∧
      ((∀ before, before <+: lines → ∀ fence?, FollowsAll none before fence? →
        (before.foldl afterLine none).isSome = fence?.isSome) ↔ isReadRight none lines = true) ∧
      (isReadRight none lines = true → ∀ (text line : Text) (k : Nat) (marker : Marker) fence?,
        ((Text.lines text).take k).map lineContent = lines → (Text.lines text)[k]? = some line →
        Marker.ofLine? (lineContent line) = some marker → FollowsAll none lines fence? →
        (Text.lines (rewriteMarkers text))[k]? =
          some (if fence? = none then marker.comment ++ lineEnding line else line)) := by
  refine ⟨?_, Fence.forall_isSome_iff Fence.isProper_none, ?_⟩
  · obtain ⟨fence?, -, h⟩ := Fence.exists_followsAll Fence.isProper_none lines
    exact ⟨fence?, h, fun other hother => hother.unique h⟩
  · intro hread text line k marker fence? hlines hline hmarker hfollows
    have hbehind : fenceBehind none ((Text.lines text).take k) = fence? := by
      rw [fenceBehind, ← List.foldl_map, hlines]
      exact (Fence.followsAll_foldl Fence.isProper_none hread).unique hfollows
    have hrun : Text.lines (rewriteMarkers text) = rewrittenLines none (Text.lines text) :=
      MarkerScan.lines_run {} text
    rw [hrun, getElem?_rewrittenLines, hline, hbehind, Option.map_some, rewrittenLine,
      Marker.ofLineBehind?]
    by_cases hfence : fence? = none
    · rw [if_pos hfence, if_pos hfence, hmarker]
    · rw [if_neg hfence, if_neg hfence]

/-- No line in front of the second marker line is misread, and it stands behind the fence. -/
theorem inFence_agrees_iff_tildes :
    isReadRight none ["~~~ a `b`".toList, "[TOC]".toList, "~~~~ ".toList] = true ∧
      (∃ fence?, FollowsAll none ["~~~ a `b`".toList, "[TOC]".toList, "~~~~ ".toList] fence? ∧
        (Text.lines (rewriteMarkers "~~~ a `b`\n[TOC]\n~~~~ \n[TOC]\n".toList))[3]? =
          some (if fence? = none then "<!-- mdv-toc -->\n".toList else "[TOC]\n".toList)) := by
  have hread : isReadRight none ["~~~ a `b`".toList, "[TOC]".toList, "~~~~ ".toList] = true := by
    decide
  obtain ⟨⟨fence?, hfollows, -⟩, -, hmarker⟩ :=
    inFence_agrees_iff ["~~~ a `b`".toList, "[TOC]".toList, "~~~~ ".toList]
  refine ⟨hread, fence?, hfollows, ?_⟩
  exact hmarker hread "~~~ a `b`\n[TOC]\n~~~~ \n[TOC]\n".toList "[TOC]\n".toList 3 ⟨none⟩ fence?
    (by decide) (by decide) (by decide) hfollows

/-- A line of text that starts with inline code opens no fence by the rule, but the marker line behind
it is kept. -/
theorem rewriteMarkers_inlineCode :
    FollowsAll none ["```a``` b".toList] none ∧
      rewriteMarkers "```a``` b\n[TOC]\n".toList = "```a``` b\n[TOC]\n".toList ∧
      Marker.ofLine? "[TOC]".toList = some ⟨none⟩ := by
  have hmisread : Fence.isMisread none "```a``` b".toList = true := by decide
  refine ⟨⟨none, ?_, rfl⟩, by decide, by decide⟩
  exact (Fence.follows_of_isMisread Fence.isProper_none hmisread).1

end Toc

end Galley
