import Galley.Proofs.Document.AutoToc
import Galley.Proofs.Toc.MarkerScan
import Mathlib.Logic.ExistsUnique

/-!
# What becomes of an inserted marker

A document gets a marker only if it has none. So the changed document holds `[TOC]` once and gets no
second marker (`AutoToc.insert_once`), and the inserted line is the only one that can become the
comment of a marker. It does so exactly if no fence is open where it stands. Marker lines are looked
for in the front matter too, where a line of a value can open a fence: then the inserted marker is
taken for code (`AutoToc.rewriteMarkers_insert`).
-/

namespace Galley

def Text.OccursOnce (p s : Text) : Prop := ∃! around : Text × Text, s = around.1 ++ p ++ around.2

/-- A text that stands behind whole lines, and in neither part around it, stands nowhere else: it does
not begin within a line before it, nor within itself. -/
theorem Text.occursOnce_append {c : Char} {p w before after : Text} (hcons : p = c :: w) (hp : '\n' ∉ p)
    (hlines : before = [] ∨ ∃ t, before = t ++ ['\n']) (hbefore : ¬ p <:+: before)
    (hafter : ¬ p <:+: w ++ after) : OccursOnce p (before ++ p ++ after) := by
  refine ⟨(before, after), rfl, ?_⟩
  rintro ⟨u, v⟩ h
  simp only [List.append_assoc] at h
  suffices hu : u = before by
    subst hu
    simp only [List.append_cancel_left_eq] at h
    rw [h]
  rcases List.append_eq_append_iff.1 h with ⟨t, rfl, ht⟩ | ⟨t, rfl, ht⟩
  · cases t with
    | nil => exact List.append_nil before
    | cons d t =>
      -- the other place would begin within the text itself or behind it
      have hstart : p ++ after = c :: (w ++ after) := by rw [hcons, List.cons_append]
      rw [hstart] at ht
      obtain ⟨-, ht⟩ := List.cons.inj ht
      refine absurd ⟨t, v, ?_⟩ hafter
      rw [List.append_assoc]
      exact ht.symm
  · rcases List.eq_nil_or_concat t with rfl | ⟨t, d, rfl⟩
    · exact (List.append_nil u).symm
    · -- the other place would begin before the last newline
      obtain rfl : d = '\n' := by
        rcases hlines with hnil | ⟨line, hline⟩
        · simp at hnil
        · rw [List.concat_eq_append, ← List.append_assoc] at hline
          simpa using (List.append_inj' hline rfl).2
      rw [List.concat_eq_append] at ht hbefore
      rcases List.prefix_or_prefix_of_prefix (List.prefix_append p v) ⟨_, ht.symm⟩ with hshort | hlong
      · exact absurd (hshort.isInfix.trans (List.suffix_append u _).isInfix) hbefore
      · exact absurd (hlong.subset (by simp)) hp

namespace Document

open Toc (Marker MarkerScan)

theorem MatterBlock.hasPrefix_of_split? {markup : Text} {cut : Text × Text}
    (h : split? markup = some cut) : Text.hasPrefix delimiter markup = true := by
  unfold split? at h
  split at h
  · cases h
  · next first lines hlines =>
    split at h
    · next hfirst =>
      obtain ⟨b, -, hb⟩ := Text.exists_append_dropEndWhile Text.isBlank first
      have hmarkup := Text.flatten_lines markup
      rw [Text.hasPrefix_iff, ← hmarkup, hlines]
      refine ⟨b ++ lines.flatten, ?_⟩
      rw [List.flatten_cons, ← List.append_assoc]
      exact congrArg (· ++ lines.flatten) (hb.trans (congrArg (· ++ b) hfirst))
    · cases h

namespace AutoToc

/-! ## The line of the marker -/

def markerLine : Text := "[TOC]: # ''"

/-- The fence that is open behind the front matter block of a document. -/
def openFence? (markup : Text) : Option Fence :=
  (MatterBlock.split? markup).bind fun (block, _) => (({} : MarkerScan).run block).2.fence

theorem closedBy_markerLine (fence : Fence) : fence.closedBy markerLine = false := by
  have hstart : Text.trimStart markerLine = markerLine := by decide
  unfold Fence.closedBy
  rw [hstart]
  by_cases hchar : fence.char = '['
  · rw [hchar]
    simp only [Bool.and_eq_false_iff]
    exact .inr (by decide)
  · have hcons : markerLine = '[' :: ("TOC]: # ''" : Text) := rfl
    have hrun : Fence.runLength fence.char markerLine = 0 := by
      rw [Fence.runLength, hcons, List.takeWhile_cons_of_neg (by simp [Ne.symm hchar])]
      rfl
    simp [hrun]

theorem afterLine_markerLine (fence : Option Fence) : Fence.afterLine fence markerLine = fence := by
  cases fence with
  | none => decide
  | some fence => simp [Fence.afterLine, closedBy_markerLine]

theorem line_markerLine (scan : MarkerScan) :
    scan.line (markerLine ++ ['\n']) =
      if scan.fence.isSome then (markerLine ++ ['\n'], scan)
      else ((⟨none⟩ : Marker).comment ++ ['\n'], { scan with markers := scan.markers + 1 }) := by
  have hcontent : Text.dropEndWhile MarkerScan.isEnding (markerLine ++ ['\n']) = markerLine := by
    decide
  have hmarker : Marker.ofLine? markerLine = some ⟨none⟩ := by decide
  unfold MarkerScan.line
  simp only [hcontent, hmarker, afterLine_markerLine]
  split
  · rfl
  · rw [List.drop_left]

theorem markers_run_of_unmarked (scan : MarkerScan) {text : Text} (h : ¬ Marker.signal <:+: text) :
    (scan.run text).1 = text ∧ (scan.run text).2.markers = scan.markers := by
  rw [scan.run_of_unmarked h]
  exact ⟨rfl, scan.markers_foldl_afterLine (Text.lines text)⟩

theorem run_markerLine (scan : MarkerScan) {after : Text} (h : ¬ Marker.signal <:+: after) :
    (scan.run (markerLine ++ '\n' :: after)).1 =
        (if scan.fence.isSome then markerLine else (⟨none⟩ : Marker).comment) ++ '\n' :: after ∧
      (scan.run (markerLine ++ '\n' :: after)).2.markers =
        scan.markers + if scan.fence.isSome then 0 else 1 := by
  have hlines : scan.run (markerLine ++ ['\n']) = scan.line (markerLine ++ ['\n']) := by
    have hline : Text.lines (markerLine ++ ['\n']) = [markerLine ++ ['\n']] := by decide
    rw [MarkerScan.run, hline]
    simp [MarkerScan.lines]
  have hsplit : markerLine ++ '\n' :: after = (markerLine ++ ['\n']) ++ after := by simp
  rw [hsplit, scan.run_append (.inr ⟨markerLine, rfl⟩), hlines, line_markerLine]
  split
  · obtain ⟨htext, hmarkers⟩ := markers_run_of_unmarked scan h
    simp [htext, hmarkers]
  · obtain ⟨htext, hmarkers⟩ :=
      markers_run_of_unmarked { scan with markers := scan.markers + 1 } h
    simp [htext, hmarkers]

/-! ## Behind the front matter -/

/-- The marker goes to the start of a document or, after one line break or two, behind its front
matter block. -/
theorem exists_place_eq (markup : Text) : ∃ before breaks after : Text,
    markup = before ++ after ∧ (place markup).1 = before ++ breaks ++ markerLine ++ "\n  \n" ++ after ∧
      (before = [] ∧ breaks = [] ∨ breaks = ['\n'] ∨ breaks = ['\n', '\n']) ∧
      (({} : MarkerScan).run before).2.fence = openFence? markup := by
  cases hsplit : MatterBlock.split? markup with
  | none =>
    refine ⟨[], [], markup, rfl, ?_, .inl ⟨rfl, rfl⟩, ?_⟩
    · unfold place
      simp only [hsplit, ite_self]
      rfl
    · rw [openFence?, hsplit]
      rfl
  | some cut =>
    obtain ⟨block, rest⟩ := cut
    have hmarkup := (MatterBlock.append_of_split? hsplit).symm
    have hfence : (({} : MarkerScan).run block).2.fence = openFence? markup := by
      rw [openFence?, hsplit]
      rfl
    have hplace : (place markup).1 = block ++ afterBlock block ++ rest := by
      unfold place
      simp only [hsplit, if_pos (MatterBlock.hasPrefix_of_split? hsplit)]
    cases hblock : Text.hasSuffix "\n" block with
    | true =>
      refine ⟨block, ['\n'], rest, hmarkup, ?_, .inr (.inl rfl), hfence⟩
      rw [hplace, afterBlock, hblock]
      simp only [List.append_assoc]
      rfl
    | false =>
      refine ⟨block, ['\n', '\n'], rest, hmarkup, ?_, .inr (.inr rfl), hfence⟩
      rw [hplace, afterBlock, hblock]
      simp only [List.append_assoc]
      rfl

theorem not_signal_isInfix_append_newline {s : Text} (h : ¬ Marker.signal <:+: s) :
    ¬ Marker.signal <:+: s ++ ['\n'] := by
  rw [Text.isInfix_append_cons_iff (by decide)]
  rintro (hpart | hpart)
  · exact h hpart
  · revert hpart
    decide

theorem not_signal_isInfix_append_breaks {before breaks : Text} (h : ¬ Marker.signal <:+: before)
    (hbreaks : before = [] ∧ breaks = [] ∨ breaks = ['\n'] ∨ breaks = ['\n', '\n']) :
    ¬ Marker.signal <:+: before ++ breaks := by
  have hone := not_signal_isInfix_append_newline h
  rcases hbreaks with ⟨rfl, rfl⟩ | rfl | rfl
  · exact h
  · exact hone
  · simpa using not_signal_isInfix_append_newline hone

theorem unmarked_breaks {before breaks : Text} (h : ¬ Marker.signal <:+: before)
    (hbreaks : before = [] ∧ breaks = [] ∨ breaks = ['\n'] ∨ breaks = ['\n', '\n']) :
    (before ++ breaks = [] ∨ ∃ p, before ++ breaks = p ++ ['\n']) ∧ breaks.all (· = '\n') = true ∧
      ∀ scan : MarkerScan, scan.run (before ++ breaks) = (before ++ breaks, (scan.run before).2) := by
  have hone := not_signal_isInfix_append_newline h
  have htwo := not_signal_isInfix_append_newline hone
  rcases hbreaks with ⟨rfl, rfl⟩ | rfl | rfl
  · exact ⟨.inl rfl, rfl, fun scan => rfl⟩
  · refine ⟨.inr ⟨before, rfl⟩, rfl, fun scan => ?_⟩
    rw [scan.run_of_unmarked hone, scan.foldl_afterLine_append_newline, scan.run_of_unmarked h]
  · have hbreaks : before ++ ['\n', '\n'] = before ++ ['\n'] ++ ['\n'] := by simp
    rw [hbreaks]
    refine ⟨.inr ⟨before ++ ['\n'], rfl⟩, rfl, fun scan => ?_⟩
    rw [scan.run_of_unmarked htwo, scan.foldl_afterLine_append_newline,
      scan.foldl_afterLine_append_newline, scan.run_of_unmarked h]

/-- The inserted line is the only one that is rewritten, and it is rewritten exactly if the front
matter leaves no fence open. -/
theorem rewriteMarkers_insert {auto : AutoToc} {markup changed : Text} {presentation : Bool}
    {folder : Option Text} {insertion : Insertion}
    (h : auto.insert markup presentation folder = (changed, some insertion)) :
    ∃ before breaks after : Text, markup = before ++ after ∧ breaks.all (· = '\n') = true ∧
      changed = before ++ breaks ++ markerLine ++ "\n  \n" ++ after ∧
      (({} : MarkerScan).run changed).1 = before ++ breaks ++
        (if (openFence? markup).isSome then markerLine else (⟨none⟩ : Marker).comment) ++ "\n  \n" ++
        after ∧
      (({} : MarkerScan).run changed).2.markers = if (openFence? markup).isSome then 0 else 1 := by
  unfold insert at h
  split at h
  · next happlies =>
    obtain ⟨before, breaks, after, hmarkup, hplace, hbreaks, hfence⟩ := exists_place_eq markup
    obtain rfl : (place markup).1 = changed := congrArg Prod.fst h
    have hnone : ¬ Marker.signal <:+: before ++ after := by
      rw [← hmarkup, ← Text.hasInfix_iff]
      unfold applies at happlies
      simp only [Bool.and_eq_true, Bool.not_eq_true'] at happlies
      exact ne_true_of_eq_false happlies.1.1.2
    have hbefore : ¬ Marker.signal <:+: before :=
      fun hpart => hnone (hpart.trans (List.prefix_append before after).isInfix)
    have hafter : ¬ Marker.signal <:+: after :=
      fun hpart => hnone (hpart.trans (List.suffix_append before after).isInfix)
    have hbehind : ¬ Marker.signal <:+: ("  " : Text) ++ '\n' :: after := by
      rw [Text.isInfix_append_cons_iff (by decide)]
      rintro (hpart | hpart)
      · revert hpart
        decide
      · exact hafter hpart
    obtain ⟨hlines, hall, hrun⟩ := unmarked_breaks hbefore hbreaks
    obtain ⟨-, hnoMarkers⟩ := markers_run_of_unmarked {} hbefore
    obtain ⟨htext, hmarkers⟩ := run_markerLine (({} : MarkerScan).run before).2 hbehind
    have hchanged : (place markup).1 =
        before ++ breaks ++ (markerLine ++ '\n' :: (("  " : Text) ++ '\n' :: after)) := by
      rw [hplace]
      simp
    refine ⟨before, breaks, after, hmarkup, hall, hplace, ?_, ?_⟩
    · rw [hchanged, MarkerScan.run_append _ hlines, hrun, htext, hfence]
      simp
    · rw [hchanged, MarkerScan.run_append _ hlines, hrun, hmarkers, hfence, hnoMarkers]
      simp
  · cases congrArg Prod.snd h

/-- A document whose front matter opens a fence, and closes it if `closed` holds. -/
def fencedMatter (closed : Bool) : Text :=
  "---\na: |\n  ```\n" ++ Text.when closed "  ```\n" ++ "---\n# A\n"

theorem rewriteMarkers_insert_closedFence :
    (⟨true, []⟩ : AutoToc).insert (fencedMatter true) false none =
      ((place (fencedMatter true)).1, some ⟨6, 3⟩) ∧
    openFence? (fencedMatter true) = none ∧
    (({} : MarkerScan).run (place (fencedMatter true)).1).2.markers = 1 := by
  have h : (⟨true, []⟩ : AutoToc).insert (fencedMatter true) false none =
      ((place (fencedMatter true)).1, some ⟨6, 3⟩) := by decide
  have hfence : openFence? (fencedMatter true) = none := by decide
  obtain ⟨before, breaks, after, -, -, -, -, hmarkers⟩ := rewriteMarkers_insert h
  rw [hfence] at hmarkers
  exact ⟨h, hfence, hmarkers⟩

/-- A fence that the front matter leaves open hides the inserted marker. -/
theorem not_rewritten_openFence :
    (⟨true, []⟩ : AutoToc).insert (fencedMatter false) false none =
      (("---\na: |\n  ```\n---\n\n[TOC]: # ''\n  \n# A\n" : Text), some ⟨5, 3⟩) ∧
    ({} : MarkerScan).run "---\na: |\n  ```\n---\n\n[TOC]: # ''\n  \n# A\n" =
      (("---\na: |\n  ```\n---\n\n[TOC]: # ''\n  \n# A\n" : Text), ⟨some ⟨'`', 3⟩, 0⟩) := by
  decide

/-! ## A single marker -/

section insertOnce

variable {auto : AutoToc} {markup : Text} {presentation : Bool} {folder : Option Text}

theorem insert_of_signal (h : Marker.signal <:+: markup) :
    auto.insert markup presentation folder = (markup, none) := by
  have hsignal : Text.hasInfix "[TOC]" markup = true := Text.hasInfix_iff.2 h
  have happlies : auto.applies markup presentation folder = false := by
    rw [applies, hsignal, Bool.not_true, Bool.and_false, Bool.false_and, Bool.false_and]
  rw [insert, happlies, if_neg Bool.false_ne_true]

theorem not_signal_isInfix_of_applies (h : auto.applies markup presentation folder = true) :
    ¬ Marker.signal <:+: markup := by
  rw [← Text.hasInfix_iff]
  unfold applies at h
  simp only [Bool.and_eq_true, Bool.not_eq_true'] at h
  exact ne_true_of_eq_false h.1.1.2

end insertOnce

theorem Placement.exists_breaks {before inserted after : Text} (h : Placement before inserted after) :
    ∃ breaks, inserted = breaks ++ marker ∧
      (before = [] ∧ breaks = [] ∨ breaks = ['\n'] ∨ breaks = ['\n', '\n']) := by
  cases h with
  | atStart => exact ⟨[], rfl, .inl ⟨rfl, rfl⟩⟩
  | behindBlock => exact ⟨['\n'], rfl, .inr (.inl rfl)⟩
  | atEnd => exact ⟨['\n', '\n'], rfl, .inr (.inr rfl)⟩

theorem Placement.occursOnce {before inserted after : Text} (h : Placement before inserted after)
    (hnone : ¬ Marker.signal <:+: before ++ after) :
    Text.OccursOnce Marker.signal (before ++ inserted ++ after) := by
  obtain ⟨breaks, rfl, hbreaks⟩ := h.exists_breaks
  have hbefore : ¬ Marker.signal <:+: before :=
    fun hpart => hnone (hpart.trans (List.prefix_append before after).isInfix)
  have hafter : ¬ Marker.signal <:+: after :=
    fun hpart => hnone (hpart.trans (List.suffix_append before after).isInfix)
  -- nor does the rest of the inserted text bring another one
  have hsecond : ¬ Marker.signal <:+: ("  " : Text) ++ '\n' :: after := by
    rw [Text.isInfix_append_cons_iff (by decide)]
    rintro (hpart | hpart)
    · revert hpart
      decide
    · exact hafter hpart
  have hbehind : ¬ Marker.signal <:+:
      ("TOC]: # ''" : Text) ++ '\n' :: (("  " : Text) ++ '\n' :: after) := by
    rw [Text.isInfix_append_cons_iff (by decide)]
    rintro (hpart | hpart)
    · rw [← Text.hasInfix_iff] at hpart
      revert hpart
      decide
    · exact hsecond hpart
  have hmarker : marker = Marker.signal ++ (": # ''\n  \n" : Text) := rfl
  rw [hmarker, ← List.append_assoc, ← List.append_assoc, List.append_assoc _ _ after]
  refine Text.occursOnce_append (c := '[') (w := "TOC]") rfl (by decide)
    (unmarked_breaks hbefore hbreaks).1 (not_signal_isInfix_append_breaks hbefore hbreaks) ?_
  exact hbehind

/-- Without an insertion the document is as it was. With one, it is the document with a text inserted
that brings its only `[TOC]`, and it gets no second one. A document in which any line would be
rewritten gets none. -/
theorem insert_once (auto : AutoToc) (markup : Text) (presentation : Bool) (folder : Option Text) :
    (match auto.insert markup presentation folder with
      | (changed, none) => changed = markup
      | (changed, some insertion) =>
        (∃ before inserted after, Placement before inserted after ∧
          Text.byteLength before = markerOffset markup ∧ markup = before ++ after ∧
          changed = before ++ inserted ++ after ∧
          insertion = ⟨before.count '\n' + 1, inserted.count '\n'⟩) ∧
        Text.OccursOnce "[TOC]" changed ∧
        auto.insert changed presentation folder = (changed, none)) ∧
      ∀ scan : MarkerScan,
        (scan.run markup).1 ≠ markup ∨ (scan.run markup).2.markers ≠ scan.markers →
          auto.insert markup presentation folder = (markup, none) := by
  constructor
  · cases happlies : auto.applies markup presentation folder with
    | false => simp [insert, happlies]
    | true =>
      obtain ⟨before, inserted, after, hplacement, hoffset, hmarkup, hplace⟩ := exists_placement markup
      have hnone := not_signal_isInfix_of_applies happlies
      rw [hmarkup] at hnone
      have honce := hplacement.occursOnce hnone
      have hsignal : Marker.signal <:+: before ++ inserted ++ after := by
        obtain ⟨⟨u, v⟩, hu, -⟩ := honce
        exact ⟨u, v, hu.symm⟩
      have hinsert : auto.insert markup presentation folder = (before ++ inserted ++ after,
          some ⟨before.count '\n' + 1, inserted.count '\n'⟩) := by
        rw [insert, happlies, hplace]
        rfl
      rw [hinsert]
      refine ⟨⟨before, inserted, after, hplacement, hoffset, hmarkup, rfl, rfl⟩, honce, ?_⟩
      exact insert_of_signal hsignal
  · intro scan hscan
    refine insert_of_signal (Classical.byContradiction fun hnone => ?_)
    obtain ⟨htext, hmarkers⟩ := markers_run_of_unmarked scan hnone
    rcases hscan with hne | hne
    · exact hne htext
    · exact hne hmarkers

/-- A marker line among other lines. -/
theorem insert_once_markedHeading :
    (({} : MarkerScan).run "# A\n [TOC]\n").2.markers ≠ 0 ∧
      (⟨true, []⟩ : AutoToc).insert "# A\n [TOC]\n" false none = (("# A\n [TOC]\n" : Text), none) := by
  have h : (({} : MarkerScan).run "# A\n [TOC]\n").2.markers ≠ 0 := by decide
  exact ⟨h, (insert_once ⟨true, []⟩ "# A\n [TOC]\n" false none).2 {} (.inr h)⟩

end AutoToc

end Document

end Galley
