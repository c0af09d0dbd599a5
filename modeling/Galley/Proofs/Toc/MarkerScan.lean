import Galley.Proofs.Text
import Galley.Toc.Marker

/-!
# Where markers are found

Lines are rewritten one after another, and all that a line leaves to the next one is the open fence
and the number of markers. A text without `[TOC]` has no marker lines, so rewriting keeps it
(`MarkerScan.run_of_unmarked`); how the last line of a text ends does not matter to the fence behind
it (`MarkerScan.foldl_afterLine_append_newline`).
-/

namespace Galley

theorem Fence.afterLine_nil (fence : Option Fence) : afterLine fence [] = fence := by
  cases fence with
  | none => rfl
  | some fence => simp [afterLine, closedBy, runLength, Text.trimStart]

namespace Toc

/-- What every marker line contains. -/
def Marker.signal : Text := "[TOC]"

theorem Marker.signal_isInfix_of_ofLine? {line : Text} {marker : Marker}
    (h : ofLine? line = some marker) : signal <:+: line := by
  refine List.IsInfix.trans ?_ (Text.trim_isInfix line)
  unfold ofLine? at h
  simp only at h
  split at h
  · next heq =>
    rw [heq]
    exact List.infix_rfl
  · obtain ⟨rest, hrest, -⟩ := Option.bind_eq_some_iff.1 h
    rw [Text.dropPrefix?_eq_some_iff.1 hrest]
    exact (List.prefix_append signal (":" ++ rest)).isInfix

namespace MarkerScan

variable (scan : MarkerScan)

theorem lines_append (a b : List Text) :
    scan.lines (a ++ b) =
      ((scan.lines a).1 ++ ((scan.lines a).2.lines b).1, ((scan.lines a).2.lines b).2) := by
  induction a generalizing scan with
  | nil => rfl
  | cons segment a ih => simp [lines, ih]

/-- What a line leaves to the next one if it is not rewritten. -/
def afterLine (segment : Text) : MarkerScan :=
  { scan with fence := Fence.afterLine scan.fence (Text.dropEndWhile isEnding segment) }

theorem line_of_unmarked {segment : Text} (h : ¬ Marker.signal <:+: segment) :
    scan.line segment = (segment, scan.afterLine segment) := by
  have hline : Marker.ofLine? (Text.dropEndWhile isEnding segment) = none := by
    rw [Option.eq_none_iff_forall_ne_some]
    intro marker hmarker
    obtain ⟨b, -, hsegment⟩ := Text.exists_append_dropEndWhile isEnding segment
    apply h
    rw [hsegment]
    exact (Marker.signal_isInfix_of_ofLine? hmarker).trans (List.prefix_append _ b).isInfix
  unfold line
  simp only [hline]
  split <;> rfl

theorem lines_of_unmarked {segments : List Text}
    (h : ∀ segment ∈ segments, ¬ Marker.signal <:+: segment) :
    scan.lines segments = (segments.flatten, segments.foldl afterLine scan) := by
  induction segments generalizing scan with
  | nil => rfl
  | cons segment segments ih =>
    rw [List.forall_mem_cons] at h
    rw [lines, line_of_unmarked scan h.1]
    simp [ih _ h.2]

theorem markers_foldl_afterLine (segments : List Text) :
    (segments.foldl afterLine scan).markers = scan.markers := by
  induction segments generalizing scan with
  | nil => rfl
  | cons segment segments ih => exact ih (scan.afterLine segment)

/-- Rewriting keeps a text without a marker. -/
theorem run_of_unmarked {text : Text} (h : ¬ Marker.signal <:+: text) :
    scan.run text = (text, (Text.lines text).foldl afterLine scan) := by
  have hlines : ∀ segment ∈ Text.lines text, ¬ Marker.signal <:+: segment := by
    intro segment hsegment hsignal
    have hpart := List.infix_of_mem_flatten hsegment
    rw [Text.flatten_lines] at hpart
    exact h (hsignal.trans hpart)
  rw [run, lines_of_unmarked scan hlines, Text.flatten_lines]

/-- Rewriting goes on behind whole lines with what they leave. -/
theorem run_append {a : Text} (h : a = [] ∨ ∃ p, a = p ++ ['\n']) (b : Text) :
    scan.run (a ++ b) =
      ((scan.run a).1 ++ ((scan.run a).2.run b).1, ((scan.run a).2.run b).2) := by
  rcases h with rfl | ⟨p, rfl⟩
  · rfl
  · unfold run
    rw [List.append_assoc, List.singleton_append, Text.lines_append_cons_newline, lines_append]

/-! ## The open fence -/

/-- How the last line of a text ends does not matter to what it leaves. -/
theorem foldl_afterLine_append_newline (s : Text) :
    (Text.lines (s ++ ['\n'])).foldl afterLine scan = (Text.lines s).foldl afterLine scan := by
  have hlast (b : Text) (hb : '\n' ∉ b) (scan : MarkerScan) :
      (Text.lines (b ++ ['\n'])).foldl afterLine scan = (Text.lines b).foldl afterLine scan := by
    rw [Text.lines_append_newline hb]
    cases b with
    | nil =>
      show { scan with fence := Fence.afterLine scan.fence [] } = scan
      rw [Fence.afterLine_nil]
    | cons c b =>
      rw [Text.lines_of_not_mem hb (List.cons_ne_nil c b)]
      show scan.afterLine (c :: b ++ ['\n']) = scan.afterLine (c :: b)
      unfold afterLine
      rw [Text.dropEndWhile_append_of_all (c :: b) (by decide)]
  rcases Text.exists_last_newline s with hs | ⟨a, b, hb, rfl⟩
  · exact hlast s hs scan
  · rw [List.append_assoc, List.cons_append, Text.lines_append_cons_newline a (b ++ ['\n']),
      Text.lines_append_cons_newline a b, List.foldl_append, List.foldl_append, hlast b hb]

end MarkerScan

end Toc

end Galley
