import Galley.Proofs.Toc.Marker
import Galley.Proofs.Toc.MarkerScan

/-!
# Rewriting line by line

Rewriting a document is rewriting its lines in turn; all that a line leaves to the next one is the
open fence (`MarkerScan.run_eq`). So a document can be rewritten in parts that end where a line ends
(`MarkerScan.runParts_flatten`). A marker that stands outside the fences becomes a comment, and
every other line is kept. Neither a marker nor its comment opens or closes a fence, and a comment is
no marker, so rewriting a second time changes nothing (`rewriteMarkers_stable`).
-/

namespace Galley

/-- A line that begins with two different characters, the first of which makes no fence and the
second of which is no blank, neither opens nor closes a fence. -/
theorem Fence.afterLine_of_trimStart {line s : Text} {c d : Char}
    (h : Text.trimStart line = c :: d :: s) (hc : c ≠ '`' ∧ c ≠ '~') (hd : d ≠ c)
    (hblank : Text.isBlank d = false) (fence : Option Fence) : afterLine fence line = fence := by
  cases fence with
  | none =>
    show ofLine? line = none
    unfold ofLine?
    rw [h]
    exact if_neg (not_or.2 hc)
  | some fence =>
    have hclosed : fence.closedBy line = false := by
      unfold closedBy
      rw [h]
      by_cases hchar : fence.char = c
      · have hrun : runLength fence.char (c :: d :: s) = 1 := by simp [runLength, hchar, hd]
        simp [hrun, hblank]
      · have hrun : runLength fence.char (c :: d :: s) = 0 := by
          simp [runLength, Ne.symm hchar]
        simp [hrun]
    show (if fence.closedBy line then none else some fence) = some fence
    rw [hclosed]
    rfl

namespace Toc

/-! ## One line -/

def lineContent (line : Text) : Text := Text.dropEndWhile MarkerScan.isEnding line

def lineEnding (line : Text) : Text := line.drop (lineContent line).length

theorem lineContent_append_lineEnding (line : Text) :
    lineContent line ++ lineEnding line = line := by
  obtain ⟨ending, -, hline⟩ := Text.exists_append_dropEndWhile MarkerScan.isEnding line
  have hprefix : lineContent line <+: line := ⟨ending, hline.symm⟩
  exact List.prefix_iff_eq_append.1 hprefix

theorem all_isEnding_lineEnding (line : Text) :
    (lineEnding line).all MarkerScan.isEnding = true := by
  obtain ⟨ending, hending, hline⟩ := Text.exists_append_dropEndWhile MarkerScan.isEnding line
  have hboth := (lineContent_append_lineEnding line).trans hline
  rwa [List.append_cancel_left hboth]

theorem lineContent_append_newline (line : Text) :
    lineContent (line ++ ['\n']) = lineContent line :=
  Text.dropEndWhile_append_of_all line (by decide)

theorem lineEnding_append_newline (line : Text) :
    lineEnding (line ++ ['\n']) = lineEnding line ++ ['\n'] := by
  have hwhole := lineContent_append_lineEnding (line ++ ['\n'])
  rw [lineContent_append_newline] at hwhole
  have hsame : lineContent line ++ lineEnding (line ++ ['\n']) =
      lineContent line ++ (lineEnding line ++ ['\n']) := by
    rw [hwhole, ← List.append_assoc, lineContent_append_lineEnding]
  exact List.append_cancel_left hsame

namespace Marker

theorem lineContent_comment_append (marker : Marker) {ending : Text}
    (h : ending.all MarkerScan.isEnding = true) :
    lineContent (marker.comment ++ ending) = marker.comment := by
  have hend : commentEnd = "--" ++ ['>'] := rfl
  unfold lineContent
  rw [Text.dropEndWhile_append_of_all _ h, comment_eq, hend, ← List.append_assoc]
  exact Text.dropEndWhile_append_singleton _ (by decide)

theorem lineEnding_comment_append (marker : Marker) {ending : Text}
    (h : ending.all MarkerScan.isEnding = true) :
    lineEnding (marker.comment ++ ending) = ending := by
  rw [lineEnding, lineContent_comment_append marker h, List.drop_left]

theorem exists_trimStart_of_ofLine? {line : Text} {marker : Marker}
    (h : ofLine? line = some marker) : ∃ s, Text.trimStart line = '[' :: 'T' :: s := by
  have htrim : ∃ s, Text.trim line = '[' :: 'T' :: s := by
    unfold ofLine? at h
    simp only at h
    split at h
    · next heq => exact ⟨"OC]", heq⟩
    · obtain ⟨rest, hrest, -⟩ := Option.bind_eq_some_iff.1 h
      exact ⟨"OC]:" ++ rest, Text.dropPrefix?_eq_some_iff.1 hrest⟩
  obtain ⟨s, hs⟩ := htrim
  obtain ⟨b, -, hstart⟩ := Text.exists_append_dropEndWhile Text.isBlank (Text.trimStart line)
  have hkept : Text.dropEndWhile Text.isBlank (Text.trimStart line) = '[' :: 'T' :: s := hs
  rw [hkept] at hstart
  exact ⟨s ++ b, hstart⟩

theorem afterLine_of_ofLine? {line : Text} {marker : Marker} (h : ofLine? line = some marker)
    (fence : Option Fence) : Fence.afterLine fence line = fence := by
  obtain ⟨s, hs⟩ := exists_trimStart_of_ofLine? h
  exact Fence.afterLine_of_trimStart hs (by decide) (by decide) (by decide) fence

theorem trimStart_comment (marker : Marker) :
    ∃ s, Text.trimStart marker.comment = '<' :: '!' :: s := by
  refine ⟨"-- mdv-toc" ++ marker.commentInner ++ commentEnd, ?_⟩
  rw [comment_eq]
  rfl

theorem afterLine_comment (marker : Marker) (fence : Option Fence) :
    Fence.afterLine fence marker.comment = fence := by
  obtain ⟨s, hs⟩ := trimStart_comment marker
  exact Fence.afterLine_of_trimStart hs (by decide) (by decide) (by decide) fence

theorem ofLine?_comment (marker : Marker) : ofLine? marker.comment = none := by
  rw [Option.eq_none_iff_forall_ne_some]
  intro other hother
  obtain ⟨s, hs⟩ := exists_trimStart_of_ofLine? hother
  obtain ⟨t, ht⟩ := trimStart_comment marker
  rw [hs] at ht
  exact absurd (List.cons.inj ht).1 (by decide)

/-- The marker that a line stands for behind what leaves `fence` open. Inside a fence no line stands
for one. -/
def ofLineBehind? (fence : Option Fence) (line : Text) : Option Marker :=
  if fence = none then ofLine? (lineContent line) else none

end Marker

/-- A line, rewritten behind what leaves `fence` open. -/
def rewrittenLine (fence : Option Fence) (line : Text) : Text :=
  match Marker.ofLineBehind? fence line with
  | none => line
  | some marker => marker.comment ++ lineEnding line

section rewrittenLine

variable {fence : Option Fence} {line : Text} {marker : Marker}

theorem ofLine?_of_ofLineBehind? (h : Marker.ofLineBehind? fence line = some marker) :
    Marker.ofLine? (lineContent line) = some marker := by
  unfold Marker.ofLineBehind? at h
  split at h
  · exact h
  · cases h

theorem rewrittenLine_of_none (h : Marker.ofLineBehind? fence line = none) :
    rewrittenLine fence line = line := by
  rw [rewrittenLine, h]

theorem rewrittenLine_of_some (h : Marker.ofLineBehind? fence line = some marker) :
    rewrittenLine fence line = marker.comment ++ lineEnding line := by
  rw [rewrittenLine, h]

theorem lineContent_rewrittenLine_of_some (h : Marker.ofLineBehind? fence line = some marker) :
    lineContent (rewrittenLine fence line) = marker.comment := by
  rw [rewrittenLine_of_some h, marker.lineContent_comment_append (all_isEnding_lineEnding line)]

variable (fence line)

theorem lineEnding_rewrittenLine : lineEnding (rewrittenLine fence line) = lineEnding line := by
  cases hmarker : Marker.ofLineBehind? fence line with
  | none => rw [rewrittenLine_of_none hmarker]
  | some marker =>
    rw [rewrittenLine_of_some hmarker]
    exact marker.lineEnding_comment_append (all_isEnding_lineEnding line)

theorem afterLine_rewrittenLine (fence' : Option Fence) :
    Fence.afterLine fence' (lineContent (rewrittenLine fence line)) =
      Fence.afterLine fence' (lineContent line) := by
  cases hmarker : Marker.ofLineBehind? fence line with
  | none => rw [rewrittenLine_of_none hmarker]
  | some marker =>
    have hline := ofLine?_of_ofLineBehind? hmarker
    rw [lineContent_rewrittenLine_of_some hmarker, marker.afterLine_comment,
      Marker.afterLine_of_ofLine? hline]

theorem ofLineBehind?_rewrittenLine :
    Marker.ofLineBehind? fence (rewrittenLine fence line) = none := by
  cases hmarker : Marker.ofLineBehind? fence line with
  | none => rwa [rewrittenLine_of_none hmarker]
  | some marker =>
    unfold Marker.ofLineBehind?
    rw [lineContent_rewrittenLine_of_some hmarker, marker.ofLine?_comment, ite_self]

theorem rewrittenLine_rewrittenLine :
    rewrittenLine fence (rewrittenLine fence line) = rewrittenLine fence line :=
  rewrittenLine_of_none (ofLineBehind?_rewrittenLine fence line)

theorem rewrittenLine_ne_iff :
    rewrittenLine fence line ≠ line ↔ (Marker.ofLineBehind? fence line).isSome = true := by
  cases hmarker : Marker.ofLineBehind? fence line with
  | none => simp [rewrittenLine_of_none hmarker]
  | some marker =>
    simp only [Option.isSome_some, iff_true]
    intro hsame
    have hnone := ofLineBehind?_rewrittenLine fence line
    rw [hsame, hmarker] at hnone
    cases hnone

theorem rewrittenLine_append_newline :
    rewrittenLine fence (line ++ ['\n']) = rewrittenLine fence line ++ ['\n'] := by
  have hsame :
      Marker.ofLineBehind? fence (line ++ ['\n']) = Marker.ofLineBehind? fence line := by
    rw [Marker.ofLineBehind?, Marker.ofLineBehind?, lineContent_append_newline]
  cases hmarker : Marker.ofLineBehind? fence line with
  | none => rw [rewrittenLine_of_none (hsame.trans hmarker), rewrittenLine_of_none hmarker]
  | some marker =>
    rw [rewrittenLine_of_some (hsame.trans hmarker), rewrittenLine_of_some hmarker,
      lineEnding_append_newline, List.append_assoc]

variable {line}

theorem newline_not_mem_rewrittenLine (h : '\n' ∉ line) : '\n' ∉ rewrittenLine fence line := by
  cases hmarker : Marker.ofLineBehind? fence line with
  | none => rwa [rewrittenLine_of_none hmarker]
  | some marker =>
    rw [← lineContent_append_lineEnding line, List.mem_append, not_or] at h
    have hcomment := Marker.newline_not_mem_comment fun title htitle hmem =>
      h.1 (Marker.mem_of_mem_title (ofLine?_of_ofLineBehind? hmarker) htitle hmem)
    rw [rewrittenLine_of_some hmarker, List.mem_append, not_or]
    exact ⟨hcomment, h.2⟩

theorem rewrittenLine_ne_nil (h : line ≠ []) : rewrittenLine fence line ≠ [] := by
  cases hmarker : Marker.ofLineBehind? fence line with
  | none => rwa [rewrittenLine_of_none hmarker]
  | some marker =>
    rw [rewrittenLine_of_some hmarker, Marker.comment_eq]
    exact List.cons_ne_nil _ _

end rewrittenLine

/-! ## The lines of a document -/

/-- The fence that is open behind the lines. -/
def fenceBehind (fence : Option Fence) (lines : List Text) : Option Fence :=
  lines.foldl (fun fence line => Fence.afterLine fence (lineContent line)) fence

/-- The lines, rewritten in turn. -/
def rewrittenLines (fence : Option Fence) : List Text → List Text
  | [] => []
  | line :: rest =>
    rewrittenLine fence line :: rewrittenLines (Fence.afterLine fence (lineContent line)) rest

def differing (lines lines' : List Text) : Nat :=
  (lines.zip lines').countP fun (line, line') => decide (line' ≠ line)

section rewrittenLines

variable (fence : Option Fence) (lines : List Text)

theorem getElem?_rewrittenLines (k : Nat) : (rewrittenLines fence lines)[k]? =
    lines[k]?.map (rewrittenLine (fenceBehind fence (lines.take k))) := by
  induction lines generalizing fence k with
  | nil => rfl
  | cons line rest ih =>
    cases k with
    | zero => rfl
    | succ k =>
      rw [rewrittenLines, List.getElem?_cons_succ, List.getElem?_cons_succ, ih]
      rfl

theorem rewrittenLines_rewrittenLines :
    rewrittenLines fence (rewrittenLines fence lines) = rewrittenLines fence lines := by
  induction lines generalizing fence with
  | nil => rfl
  | cons line rest ih =>
    rw [rewrittenLines, rewrittenLines, rewrittenLine_rewrittenLine, afterLine_rewrittenLine, ih]

theorem map_lineEnding_rewrittenLines :
    (rewrittenLines fence lines).map lineEnding = lines.map lineEnding := by
  induction lines generalizing fence with
  | nil => rfl
  | cons line rest ih =>
    rw [rewrittenLines, List.map_cons, List.map_cons, lineEnding_rewrittenLine, ih]

theorem lines_flatten_rewrittenLines (text : Text) :
    Text.lines (rewrittenLines fence (Text.lines text)).flatten =
      rewrittenLines fence (Text.lines text) := by
  induction text using Text.lineInduction generalizing fence with
  | nil => rfl
  | last t ht hne =>
    rw [Text.lines_of_not_mem ht hne]
    show Text.lines (rewrittenLine fence t ++ []) = [rewrittenLine fence t]
    rw [List.append_nil]
    exact Text.lines_of_not_mem (newline_not_mem_rewrittenLine fence ht)
      (rewrittenLine_ne_nil fence hne)
  | line t rest ht ih =>
    rw [Text.lines_append_newline ht, rewrittenLines, rewrittenLine_append_newline,
      List.flatten_cons, List.append_assoc, List.singleton_append,
      Text.lines_append_newline (newline_not_mem_rewrittenLine fence ht), ih]

end rewrittenLines

namespace MarkerScan

theorem line_eq (scan : MarkerScan) (segment : Text) :
    scan.line segment = (rewrittenLine scan.fence segment,
      ⟨Fence.afterLine scan.fence (lineContent segment),
        scan.markers + if rewrittenLine scan.fence segment ≠ segment then 1 else 0⟩) := by
  obtain ⟨fence, markers⟩ := scan
  have hcontent : Text.dropEndWhile isEnding segment = lineContent segment := rfl
  have hending : segment.drop (lineContent segment).length = lineEnding segment := rfl
  simp only [rewrittenLine_ne_iff]
  unfold line rewrittenLine Marker.ofLineBehind?
  simp only [hcontent, hending]
  cases hmarker : Marker.ofLine? (lineContent segment) with
  | none => simp
  | some marker =>
    rw [Marker.afterLine_of_ofLine? hmarker]
    cases fence with
    | none => rfl
    | some fence => rfl

theorem lines_eq (scan : MarkerScan) (segments : List Text) :
    scan.lines segments = ((rewrittenLines scan.fence segments).flatten,
      ⟨fenceBehind scan.fence segments,
        scan.markers + differing segments (rewrittenLines scan.fence segments)⟩) := by
  induction segments generalizing scan with
  | nil => rfl
  | cons segment rest ih =>
    rw [lines, line_eq]
    simp only [ih]
    simp [rewrittenLines, fenceBehind, differing, List.countP_cons, Nat.add_assoc, Nat.add_comm]

theorem run_eq (scan : MarkerScan) (text : Text) :
    scan.run text = ((rewrittenLines scan.fence (Text.lines text)).flatten,
      ⟨fenceBehind scan.fence (Text.lines text),
        scan.markers +
          differing (Text.lines text) (rewrittenLines scan.fence (Text.lines text))⟩) :=
  lines_eq scan (Text.lines text)

theorem lines_run (scan : MarkerScan) (text : Text) :
    Text.lines (scan.run text).1 = rewrittenLines scan.fence (Text.lines text) := by
  rw [run_eq]
  exact lines_flatten_rewrittenLines scan.fence text

/-! ## Parts -/

/-- Rewrites the parts of a document in turn, each from what the part before it left. -/
def runParts (scan : MarkerScan) : List Text → List Text × MarkerScan
  | [] => ([], scan)
  | part :: rest =>
    let (out, scan) := scan.run part
    let (outs, scan) := scan.runParts rest
    (out :: outs, scan)

/-- Rewriting the parts of a document in turn is rewriting the document, if all parts but the last
end where a line ends. -/
theorem runParts_flatten (scan : MarkerScan) {parts : List Text}
    (h : ∀ part ∈ parts.dropLast, part = [] ∨ ∃ p, part = p ++ ['\n']) :
    ((scan.runParts parts).1.flatten, (scan.runParts parts).2) = scan.run parts.flatten := by
  induction parts generalizing scan with
  | nil => rfl
  | cons part rest ih =>
    cases rest with
    | nil => simp [runParts]
    | cons next rest =>
      rw [List.dropLast_cons_cons, List.forall_mem_cons] at h
      have hrest := ih (scan.run part).2 h.2
      rw [List.flatten_cons, scan.run_append h.1, ← hrest]
      rfl

/-- A fence that is opened in the first part and closed in the third one, an empty part, and a last
line without an ending. -/
def fencedParts : List Text :=
  ["```\r\n", "", "[TOC]\n```\r\n[TOC]\r\n", "[TOC]: # 'x'"]

theorem runParts_flatten_fencedParts :
    (∀ part ∈ fencedParts.dropLast, part = [] ∨ ∃ p, part = p ++ ['\n']) ∧
      ((({} : MarkerScan).runParts fencedParts).1.flatten,
        (({} : MarkerScan).runParts fencedParts).2) =
        (("```\r\n[TOC]\n```\r\n<!-- mdv-toc -->\r\n<!-- mdv-toc: x -->" : Text), ⟨none, 2⟩) := by
  have hparts : ∀ part ∈ fencedParts.dropLast, part = [] ∨ ∃ p, part = p ++ ['\n'] := by
    intro part hpart
    have hcases : part = "```\r\n" ∨ part = [] ∨ part = "[TOC]\n```\r\n[TOC]\r\n" := by
      simpa [fencedParts] using hpart
    rcases hcases with rfl | rfl | rfl
    · exact .inr ⟨"```\r", rfl⟩
    · exact .inl rfl
    · exact .inr ⟨"[TOC]\n```\r\n[TOC]\r", rfl⟩
  exact ⟨hparts, (runParts_flatten {} hparts).trans (by decide)⟩

end MarkerScan

/-! ## Rewriting twice -/

/-- Rewriting a second time changes nothing. The lines keep their endings. A line is changed exactly
if it is a marker line outside the fences; then it becomes the comment of the marker, and it is
counted. -/
theorem rewriteMarkers_stable (text : Text) :
    let lines := Text.lines text
    let lines' := Text.lines (rewriteMarkers text)
    rewriteMarkers (rewriteMarkers text) = rewriteMarkers text ∧
      lines'.map lineEnding = lines.map lineEnding ∧
      (∀ k line line', lines[k]? = some line → lines'[k]? = some line' →
        (line' ≠ line ↔ fenceBehind none (lines.take k) = none ∧
          (Marker.ofLine? (lineContent line)).isSome = true) ∧
        ∀ marker, Marker.ofLine? (lineContent line) = some marker → line' ≠ line →
          lineContent line' = marker.comment) ∧
      (({} : MarkerScan).run text).2.markers = differing lines lines' := by
  intro lines lines'
  have hlines : lines' = rewrittenLines none lines := MarkerScan.lines_run {} text
  have hrun (text : Text) : rewriteMarkers text = (rewrittenLines none (Text.lines text)).flatten :=
    congrArg Prod.fst (MarkerScan.run_eq {} text)
  refine ⟨?_, ?_, fun k line line' hline hline' => ?_, ?_⟩
  · show rewriteMarkers (rewriteMarkers text) = _
    rw [hrun (rewriteMarkers text)]
    show (rewrittenLines none lines').flatten = _
    rw [hlines, rewrittenLines_rewrittenLines, hrun]
  · rw [hlines, map_lineEnding_rewrittenLines]
  · rw [hlines, getElem?_rewrittenLines, hline, Option.map_some] at hline'
    obtain rfl := Option.some.inj hline'
    generalize fenceBehind none (lines.take k) = fence
    have hchanged : rewrittenLine fence line ≠ line ↔
        fence = none ∧ (Marker.ofLine? (lineContent line)).isSome = true := by
      rw [rewrittenLine_ne_iff, Marker.ofLineBehind?]
      by_cases hfence : fence = none <;> simp [hfence]
    refine ⟨hchanged, fun marker hmarker hne => lineContent_rewrittenLine_of_some ?_⟩
    rw [Marker.ofLineBehind?, if_pos (hchanged.1 hne).1, hmarker]
  · rw [hlines, MarkerScan.run_eq]
    exact Nat.zero_add _

/-- A marker whose title has a carriage return, a marker in a fence, and one that ends the
document. -/
def fencedMarker : Text := "[TOC]: # 'a\rb'\r\n```\n[TOC]\n```\n [TOC]"

theorem rewriteMarkers_stable_fencedMarker :
    rewriteMarkers fencedMarker =
        "<!-- mdv-toc: a\rb -->\r\n```\n[TOC]\n```\n<!-- mdv-toc -->" ∧
      rewriteMarkers (rewriteMarkers fencedMarker) = rewriteMarkers fencedMarker ∧
      (Text.lines fencedMarker)[4]? = some (" [TOC]" : Text) ∧
      (Text.lines (rewriteMarkers fencedMarker))[4]? = some ("<!-- mdv-toc -->" : Text) ∧
      (fenceBehind none ((Text.lines fencedMarker).take 4) = none ∧
        (Marker.ofLine? (lineContent " [TOC]")).isSome = true) ∧
      lineContent "<!-- mdv-toc -->" = (⟨none⟩ : Marker).comment := by
  have hline : (Text.lines fencedMarker)[4]? = some (" [TOC]" : Text) := by decide
  have hline' : (Text.lines (rewriteMarkers fencedMarker))[4]? =
      some ("<!-- mdv-toc -->" : Text) := by decide
  have hmarker : Marker.ofLine? (lineContent " [TOC]") = some ⟨none⟩ := by decide
  have hne : ("<!-- mdv-toc -->" : Text) ≠ " [TOC]" := by decide
  obtain ⟨htwice, -, hlines, -⟩ := rewriteMarkers_stable fencedMarker
  obtain ⟨hchanged, hcomment⟩ := hlines 4 _ _ hline hline'
  exact ⟨by decide, htwice, hline, hline', hchanged.1 hne, hcomment _ hmarker hne⟩

end Toc

end Galley
