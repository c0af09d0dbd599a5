import Galley.Proofs.Html.Element
import Galley.Toc.Marker

/-!
# Comments of markers

Rewriting leaves a line as it is or puts the comment of a marker in its place. Such a comment is
read back as a marker, and its title has no brackets.
-/

namespace Galley.Toc

namespace Marker

open Html (isPlain)

/-- Whether the text is the comment of a marker, perhaps among blanks. -/
def IsComment (html : Text) : Prop :=
  ∃ (marker : Marker) (before after : Text), before.all Text.isBlank = true ∧
    after.all Text.isBlank = true ∧ html = before ++ marker.comment ++ after

/-! ## Writing -/

/-- A rewritten line is the line itself, or the comment of the marker that the line is, with the
ending of the line. -/
theorem line_eq_or (scan : MarkerScan) (segment : Text) : (scan.line segment).1 = segment ∨
    ∃ (content ending : Text) (marker : Marker),
      content = Text.dropEndWhile MarkerScan.isEnding segment ∧
      ending.all MarkerScan.isEnding = true ∧ segment = content ++ ending ∧
      ofLine? content = some marker ∧ (scan.line segment).1 = marker.comment ++ ending := by
  obtain ⟨ending, hending, hsegment⟩ :=
    Text.exists_append_dropEndWhile MarkerScan.isEnding segment
  have hdrop : segment.drop (Text.dropEndWhile MarkerScan.isEnding segment).length = ending := by
    conv => lhs; arg 2; rw [hsegment]
    exact List.drop_left
  unfold MarkerScan.line
  simp only [hdrop]
  split
  · exact .inl rfl
  · split
    · exact .inl rfl
    · next marker hmarker => exact .inr ⟨_, ending, marker, rfl, hending, hsegment, hmarker, rfl⟩

/-! ## Reading back -/

/-- What stands between the start and the end of the comment. -/
def commentInner (marker : Marker) : Text :=
  match marker.title with
  | none => " "
  | some title => ": " ++ Html.escape title ++ " "

theorem comment_eq (marker : Marker) :
    marker.comment = commentStart ++ marker.commentInner ++ commentEnd := by
  unfold comment commentInner
  cases marker.title <;> simp

theorem trim_comment (marker : Marker) {before after : Text}
    (hbefore : before.all Text.isBlank = true) (hafter : after.all Text.isBlank = true) :
    Text.trim (before ++ marker.comment ++ after) = marker.comment := by
  have hends : marker.comment = '<' :: ("!-- mdv-toc" ++ marker.commentInner ++ "--") ++ ['>'] := by
    have hstart : commentStart = '<' :: "!-- mdv-toc".toList := rfl
    have hend : commentEnd = "--" ++ ['>'] := rfl
    rw [comment_eq, hstart, hend, ← List.append_assoc]
    rfl
  rw [hends]
  exact Text.trim_between _ hbefore hafter (by decide) (by decide)

theorem isPlain_trim {s : Text} (h : isPlain s = true) : isPlain (Text.trim s) = true := by
  rw [isPlain, List.all_eq_true] at h ⊢
  exact fun c hc => h c (Text.mem_of_mem_trim hc)

theorem isPlain_title_ofTitle {title : Text} (h : isPlain title = true) :
    (ofTitle title).title.all isPlain = true := by
  unfold ofTitle
  split
  · rfl
  · exact h

theorem ofComment?_eq (marker : Marker) {before after : Text}
    (hbefore : before.all Text.isBlank = true) (hafter : after.all Text.isBlank = true) :
    ofComment? (before ++ marker.comment ++ after) =
      if (Text.trim marker.commentInner).isEmpty then some ⟨none⟩
      else (Text.dropPrefix? ":" (Text.trim marker.commentInner)).bind
        fun title => some (ofTitle (Text.trim title)) := by
  have hstart : Text.dropPrefix? commentStart marker.comment =
      some (marker.commentInner ++ commentEnd) := by
    rw [Text.dropPrefix?_eq_some_iff, comment_eq, List.append_assoc]
  have hend : Text.dropSuffix? commentEnd (marker.commentInner ++ commentEnd) =
      some marker.commentInner := Text.dropSuffix?_eq_some_iff.2 rfl
  unfold ofComment?
  rw [trim_comment marker hbefore hafter, hstart]
  simp only [Option.bind_eq_bind, Option.bind_some, hend]

theorem exists_ofComment?_of_isComment {html : Text} (h : IsComment html) :
    ∃ marker, ofComment? html = some marker ∧ marker.title.all isPlain = true := by
  obtain ⟨marker, before, after, hbefore, hafter, rfl⟩ := h
  rw [ofComment?_eq marker hbefore hafter]
  unfold commentInner
  cases marker.title with
  | none => exact ⟨⟨none⟩, rfl, rfl⟩
  | some title =>
    obtain ⟨rest, hrest⟩ := Text.trim_cons (" " ++ Html.escape title ++ " ")
      (show Text.isBlank ':' = false by decide)
    have hinner : isPlain (':' :: (" " ++ Html.escape title ++ " ")) = true := by
      simp [Html.isPlain_escape, Html.isBracket]
    have hplain : isPlain rest = true := by
      have htrim := isPlain_trim hinner
      rw [hrest, Html.isPlain_cons, Bool.and_eq_true] at htrim
      exact htrim.2
    refine ⟨ofTitle (Text.trim rest), ?_, isPlain_title_ofTitle (isPlain_trim hplain)⟩
    have hcons : ((": " : Text) ++ Html.escape title ++ " ") =
        ':' :: (" " ++ Html.escape title ++ " ") := rfl
    simp only [hcons, hrest]
    rfl

/-! ## Newlines -/

theorem exists_of_title {line title : Text} {marker : Marker} (h : ofLine? line = some marker)
    (htitle : marker.title = some title) :
    ∃ quoted, quoted <:+ Text.trim line ∧ title = Text.trim (Text.unquote (Text.trim quoted)) := by
  unfold ofLine? at h
  simp only at h
  split at h
  · obtain rfl := Option.some.inj h
    cases htitle
  · obtain ⟨rest, hrest, h⟩ := Option.bind_eq_some_iff.1 h
    obtain ⟨quoted, hquoted, h⟩ := Option.bind_eq_some_iff.1 h
    obtain rfl := Option.some.inj h
    have hsuffix : quoted <:+ Text.trimStart rest := by
      rw [Text.dropPrefix?_eq_some_iff.1 hquoted]
      exact List.suffix_append _ _
    have hline : rest <:+ Text.trim line := by
      rw [Text.dropPrefix?_eq_some_iff.1 hrest]
      exact List.suffix_append _ _
    refine ⟨quoted, (hsuffix.trans (List.dropWhile_suffix _)).trans hline, ?_⟩
    unfold ofTitle at htitle
    split at htitle
    · cases htitle
    · exact (Option.some.inj htitle).symm

theorem mem_of_mem_title {line title : Text} {marker : Marker} (h : ofLine? line = some marker)
    (htitle : marker.title = some title) {c : Char} (hc : c ∈ title) : c ∈ line := by
  obtain ⟨quoted, hquoted, rfl⟩ := exists_of_title h htitle
  have hmem : c ∈ quoted :=
    Text.mem_of_mem_trim (Text.mem_of_mem_unquote (Text.mem_of_mem_trim hc))
  exact Text.mem_of_mem_trim (hquoted.subset hmem)

theorem newline_not_mem_comment {marker : Marker}
    (h : ∀ title, marker.title = some title → '\n' ∉ title) : '\n' ∉ marker.comment := by
  have hstart : '\n' ∉ commentStart := by decide
  have hend : '\n' ∉ commentEnd := by decide
  have hinner : '\n' ∉ marker.commentInner := by
    unfold commentInner
    split
    · decide
    · next title htitle => simp [Html.not_mem_escape (by decide) (h title htitle)]
  rw [comment_eq]
  simp only [List.mem_append, not_or]
  exact ⟨⟨hstart, hinner⟩, hend⟩

theorem count_line (scan : MarkerScan) {segment : Text}
    (h : ∃ t, '\n' ∉ t ∧ (segment = t ∨ segment = t ++ ['\n'])) :
    (scan.line segment).1.count '\n' = segment.count '\n' := by
  rcases line_eq_or scan segment with
    hsame | ⟨content, ending, marker, hcontent, -, hsegment, hmarker, hline⟩
  · rw [hsame]
  · have hnewline : '\n' ∉ content := by
      obtain ⟨t, ht, rfl | rfl⟩ := h
      · rw [hcontent]
        exact fun hmem => ht (Text.mem_of_mem_dropEndWhile hmem)
      · rw [hcontent, Text.dropEndWhile_append_of_all t (by decide)]
        exact fun hmem => ht (Text.mem_of_mem_dropEndWhile hmem)
    have hcomment := newline_not_mem_comment fun title htitle hmem =>
      hnewline (mem_of_mem_title hmarker htitle hmem)
    rw [hline, hsegment, List.count_append, List.count_append, List.count_eq_zero.2 hcomment,
      List.count_eq_zero.2 hnewline]

theorem count_lines (scan : MarkerScan) {segments : List Text}
    (h : ∀ segment ∈ segments, ∃ t, '\n' ∉ t ∧ (segment = t ∨ segment = t ++ ['\n'])) :
    (scan.lines segments).1.count '\n' = segments.flatten.count '\n' := by
  induction segments generalizing scan with
  | nil => rfl
  | cons segment rest ih =>
    rw [List.forall_mem_cons] at h
    rw [List.flatten_cons, List.count_append, ← count_line scan h.1, ← ih (scan.line segment).2 h.2]
    exact List.count_append

end Marker

theorem count_rewriteMarkers (text : Text) :
    (rewriteMarkers text).count '\n' = text.count '\n' := by
  have hsegments : ∀ segment ∈ Text.lines text, ∃ t, '\n' ∉ t ∧ (segment = t ∨ segment = t ++ ['\n']) :=
    fun _ hsegment => Text.exists_of_mem_lines hsegment
  have hlines := Marker.count_lines {} hsegments
  rwa [Text.flatten_lines] at hlines

end Galley.Toc
