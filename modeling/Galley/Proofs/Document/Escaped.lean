import Galley.Document.Conversion
import Galley.Proofs.Document.AutoToc
import Galley.Proofs.Document.Feature
import Galley.Proofs.Document.LinkTarget
import Galley.Proofs.Document.Substitution
import Galley.Proofs.Markdown.Tame
import Galley.Proofs.Toc.Marker

/-!
# Escaped markup

Without math, the backslashes of a prepared document are those that escape its dollar signs. No
step of rewriting the markup parts a backslash from its dollar sign, and only the comments of
markers add ampersands, which begin the entities of their titles. So the source that is parsed is
tame (`tame_source_prepare`).
-/

namespace Galley.Document

open Markdown (Cut Tame cut_cons)

/-- Each backslash of the markup escapes a dollar sign, and there is no ampersand. -/
structure Escaped (s : Text) : Prop where
  tame : Tame s
  ampersand : '&' ∉ s

namespace Escaped

variable {s t : Text} {c : Char}

theorem of_not_mem (hbackslash : '\\' ∉ s) (hampersand : '&' ∉ s) : Escaped s :=
  ⟨.of_not_mem hbackslash hampersand, hampersand⟩

theorem append (hs : Escaped s) (ht : Escaped t) : Escaped (s ++ t) :=
  ⟨hs.tame.append ht.tame, List.not_mem_append hs.ampersand ht.ampersand⟩

theorem of_suffix (h : Escaped s) (ht : t <:+ s) : Escaped t :=
  ⟨h.tame.of_suffix ht, fun hmem => h.ampersand (ht.subset hmem)⟩

theorem of_cut (h : Escaped (s ++ t)) (ht : Cut t) : Escaped s :=
  ⟨h.tame.of_cut ht, fun hmem => h.ampersand (List.mem_append_left t hmem)⟩

theorem trim (h : Escaped s) : Escaped (Text.trim s) :=
  ⟨(h.tame.dropWhile _).dropEndWhile (by decide),
    fun hmem => h.ampersand (Text.mem_of_mem_trim hmem)⟩

theorem unquote (h : Escaped s) : Escaped (Text.unquote s) := by
  have hinner : ∀ {quote : Char} {t : Text}, quote ∉ Markdown.inside →
      (Text.dropPrefix? [quote] s).bind (Text.dropSuffix? [quote]) = some t → Escaped t := by
    intro quote t hquote ht
    obtain ⟨rest, hrest, hsuffix⟩ := Option.bind_eq_some_iff.1 ht
    have hopened := h.of_suffix (t := rest) ⟨_, (Text.dropPrefix?_eq_some_iff.1 hrest).symm⟩
    rw [Text.dropSuffix?_eq_some_iff.1 hsuffix] at hopened
    exact hopened.of_cut (cut_cons hquote [])
  unfold Text.unquote
  simp only
  cases hsingle : (Text.dropPrefix? ['\''] s).bind (Text.dropSuffix? ['\'']) with
  | some t => exact hinner (by decide) hsingle
  | none =>
    cases hdouble : (Text.dropPrefix? ['"'] s).bind (Text.dropSuffix? ['"']) with
    | some t => exact hinner (by decide) hdouble
    | none => exact h

theorem cons (h : Escaped (c :: s)) (ht : Escaped t)
    (hdollar : s.head? = some '$' → t.head? = some '$') : Escaped (c :: t) := by
  have hc : c ≠ '&' := fun heq => h.ampersand (heq ▸ List.mem_cons_self)
  exact ⟨⟨fun heq => hdollar (h.tame.1 heq), fun heq => absurd heq hc, ht.tame⟩,
    List.not_mem_cons_of_ne_of_not_mem hc.symm ht.ampersand⟩

theorem tail (h : Escaped (c :: s)) : Escaped s := h.of_suffix (List.suffix_cons c s)

end Escaped

/-! ## Escaping -/

theorem escaped_escapeDollars {markup : Text} (hbackslash : '\\' ∉ markup)
    (hampersand : '&' ∉ markup) : Escaped (escapeDollars markup) := by
  induction markup with
  | nil => exact .of_not_mem List.not_mem_nil List.not_mem_nil
  | cons c markup ih =>
    rw [List.mem_cons, not_or] at hbackslash hampersand
    have hrest := ih hbackslash.2 hampersand.2
    by_cases hc : c = '$'
    · have hpair : Escaped ['\\', '$'] :=
        ⟨⟨fun _ => rfl, fun h => absurd h (by decide), .of_not_mem (by decide) (by decide)⟩,
          by decide⟩
      rw [hc, escapeDollars_cons_dollar]
      exact hpair.append hrest
    · have hkept : Escaped [c] :=
        .of_not_mem (by simpa using hbackslash.1) (by simpa using hampersand.1)
      rw [escapeDollars_cons_of_ne hc]
      exact hkept.append hrest

theorem escaped_applyFeatures {markup : Text} (hbackslash : '\\' ∉ markup)
    (hampersand : '&' ∉ markup) {options : Options} (hmath : options.math = false) :
    Escaped (({ markup } : Draft).applyFeatures options).markup := by
  rw [Draft.markup_applyFeatures_of_not_math hmath]
  exact escaped_escapeDollars hbackslash hampersand

/-! ## Inserting and replacing -/

namespace Escaped

variable {markup : Text}

theorem of_split? {block rest : Text} (h : Escaped markup)
    (hsplit : MatterBlock.split? markup = some (block, rest)) : Escaped block ∧ Escaped rest := by
  have hmarkup := MatterBlock.append_of_split? hsplit
  refine ⟨?_, h.of_suffix ⟨block, hmarkup⟩⟩
  cases hnewline : Text.hasSuffix "\n" block with
  | true =>
    obtain ⟨lines, rfl⟩ := Text.hasSuffix_iff.1 hnewline
    rw [← hmarkup, List.append_assoc] at h
    exact (h.of_cut (cut_cons (by decide) _)).append (.of_not_mem (by decide) (by decide))
  | false =>
    obtain rfl := MatterBlock.rest_eq_nil_of_split? hsplit hnewline
    rw [← hmarkup, List.append_nil] at h
    exact h

theorem insert (h : Escaped markup) (auto : AutoToc) (presentation : Bool) (folder : Option Text) :
    Escaped (auto.insert markup presentation folder).1 := by
  have hmarker : Escaped AutoToc.marker := .of_not_mem (by decide) (by decide)
  unfold AutoToc.insert
  split
  · show Escaped (AutoToc.place markup).1
    unfold AutoToc.place
    simp only
    split
    · next block rest hblock =>
      have hsplit : MatterBlock.split? markup = some (block, rest) := by
        split at hblock
        · exact hblock
        · cases hblock
      obtain ⟨hmatter, hrest⟩ := h.of_split? hsplit
      have hafter : Escaped (AutoToc.afterBlock block) := by
        unfold AutoToc.afterBlock Text.when
        split
        · exact .of_not_mem (by decide) (by decide)
        · exact .of_not_mem (by decide) (by decide)
      exact (hmatter.append hafter).append hrest
    · exact hmarker.append h
  · exact h

theorem replace (h : Escaped markup) {c : Char} (hc : c ≠ '$') (p : Text) {r : Text}
    (hr : Escaped r) : Escaped (Text.replace (c :: p) r markup) := by
  have hfrom : ∀ skip, Escaped (Text.replaceFrom (c :: p) r skip markup) := by
    induction markup with
    | nil => exact fun skip => by cases skip <;> exact h
    | cons d s ih =>
      intro skip
      cases skip with
      | succ skip => exact ih h.tail skip
      | zero =>
        rw [Text.replaceFrom]
        split
        · exact hr.append (ih h.tail _)
        · refine h.cons (ih h.tail 0) fun hdollar => ?_
          -- the pattern does not begin with a dollar sign
          cases s with
          | nil => cases hdollar
          | cons e s =>
            obtain rfl : e = '$' := Option.some.inj hdollar
            have hprefix : ¬ Text.hasPrefix (c :: p) ('$' :: s) = true := by
              rw [Text.hasPrefix_iff]
              rintro ⟨rest, hrest⟩
              exact hc (List.cons.inj hrest).1.symm
            rw [Text.replaceFrom, if_neg hprefix]
            rfl
  exact hfrom 0

theorem rewriteSiteTokens (h : Escaped markup) : Escaped (rewriteSiteTokens markup) :=
  (h.replace (by decide) _ (.of_not_mem (by decide) (by decide))).replace (by decide) _
    (.of_not_mem (by decide) (by decide))

theorem breakLines (h : Escaped markup) : Escaped (breakLines markup) :=
  h.replace (by decide) _ (.of_not_mem (by decide) (by decide))

theorem hardLineBreaks (h : Escaped markup) : Escaped (hardLineBreaks markup) := by
  unfold Document.hardLineBreaks
  split
  · next block rest hsplit =>
    obtain ⟨hblock, hrest⟩ := h.of_split? hsplit
    exact hblock.append hrest.breakLines
  · exact h.breakLines

end Escaped

/-! ## Link targets -/

namespace Link

theorem cut_of_atStart? {link : Link} {rest : Text} (h : atStart? (link.source ++ rest) = some link) :
    Cut (link.title ++ [')']) := by
  obtain ⟨-, -, htarget⟩ := atStart?_source_iff.1 h
  obtain ⟨-, hend, -⟩ := target?_append_iff.1 htarget
  rcases title_cases hend with htitle | ⟨⟨blanks, inner, hne, hblanks, -, htitle⟩, -⟩
  · rw [htitle]
    exact cut_cons (by decide) []
  · obtain ⟨c, blanks, rfl⟩ := List.exists_cons_of_ne_nil hne
    have hblank : Markdown.inside.any Text.isBlank = false := by decide
    rw [htitle]
    refine cut_cons (fun hmem => ?_) _
    exact List.any_eq_false.1 hblank c hmem (hblanks c List.mem_cons_self)

theorem escaped_source_encoded {link : Link} (h : Escaped link.source)
    (hcut : Cut (link.title ++ [')'])) : Escaped link.encoded.source := by
  have hopening : Escaped "[" := .of_not_mem (by decide) (by decide)
  have hbetween : Escaped "](" := .of_not_mem (by decide) (by decide)
  have hclosing : Escaped ")" := .of_not_mem (by decide) (by decide)
  have hpercent : Escaped "%20" := .of_not_mem (by decide) (by decide)
  have hsource : link.source =
      "[" ++ (link.text ++ ("](" ++ (link.target ++ (link.title ++ [')'])))) := by
    simp [source]
  rw [hsource] at h
  have hinner := h.of_suffix (List.suffix_append _ _)
  have htext : Escaped link.text := hinner.of_cut (cut_cons (by decide) _)
  have hbehind := (hinner.of_suffix (List.suffix_append _ _)).of_suffix (List.suffix_append _ _)
  have htarget : Escaped link.target := hbehind.of_cut hcut
  have htitle : Escaped link.title :=
    (hbehind.of_suffix (List.suffix_append _ _)).of_cut (cut_cons (by decide) [])
  exact ((((hopening.append htext).append hbetween).append
    (htarget.trim.replace (by decide) [] hpercent)).append htitle).append hclosing

end Link

theorem escaped_encodeLinkTargets {markup : Text} (h : Escaped markup) :
    Escaped (encodeLinkTargets markup) := by
  induction markup using Link.read_induction with
  | nil => exact h
  | link link rest hlink ih =>
    have hsource : Escaped link.source := by
      have hlast : link.source =
          "[" ++ link.text ++ "](" ++ link.target ++ link.title ++ [')'] := rfl
      rw [hlast, List.append_assoc] at h
      rw [hlast]
      exact (h.of_cut (cut_cons (by decide) rest)).append (.of_not_mem (by decide) (by decide))
    rw [encodeLinkTargets_source hlink]
    exact (Link.escaped_source_encoded hsource (Link.cut_of_atStart? hlink)).append
      (ih (h.of_suffix (List.suffix_append _ _)))
  | plain c s hplain ih =>
    rw [encodeLinkTargets_cons hplain]
    refine h.cons (ih h.tail) fun hdollar => ?_
    -- no link begins with a dollar sign
    cases s with
    | nil => cases hdollar
    | cons d s =>
      obtain rfl : d = '$' := Option.some.inj hdollar
      rw [encodeLinkTargets_cons_of_ne (by decide)]
      rfl

/-! ## Marker lines -/

namespace Escaped

theorem lines {text : Text} (h : Escaped text) : ∀ line ∈ Text.lines text, Escaped line := by
  intro line hline
  obtain ⟨before, after, hlines⟩ := List.append_of_mem hline
  have htext := Text.flatten_lines text
  rw [hlines, List.flatten_append, List.flatten_cons] at htext
  rw [← htext] at h
  have hrest := h.of_suffix (List.suffix_append _ _)
  cases after with
  | nil => simpa using hrest
  | cons next after =>
    obtain ⟨t, rfl⟩ := Text.exists_eq_append_newline before hlines
    rw [List.append_assoc] at hrest
    exact (hrest.of_cut (cut_cons (by decide) _)).append (.of_not_mem (by decide) (by decide))

theorem tame_escapeChar {c : Char} (hbackslash : c ≠ '\\') (hampersand : c ≠ '&') :
    Tame (Html.escapeChar c) := by
  unfold Html.escapeChar
  split
  · next hc => exact absurd hc hampersand
  split
  · decide
  split
  · decide
  split
  · decide
  split
  · decide
  · exact .of_not_mem (by simpa using hbackslash.symm) (by simpa using hampersand.symm)

theorem tame_escape {s : Text} (h : Escaped s) : Tame (Html.escape s) := by
  induction s with
  | nil => exact .nil
  | cons c s ih =>
    have hrest := ih h.tail
    have hc : c ≠ '&' := fun heq => h.ampersand (heq ▸ List.mem_cons_self)
    rw [Html.escape, List.flatMap_cons]
    by_cases hbackslash : c = '\\'
    · have hdollar := h.tame.1 hbackslash
      subst hbackslash
      cases s with
      | nil => cases hdollar
      | cons d s =>
        obtain rfl : d = '$' := Option.some.inj hdollar
        exact ⟨fun _ => rfl, fun heq => absurd heq hc, hrest⟩
    · exact (tame_escapeChar hbackslash hc).append hrest

theorem tame_comment {marker : Toc.Marker}
    (h : ∀ title, marker.title = some title → Escaped title) : Tame marker.comment := by
  have hstart : Tame Toc.Marker.commentStart := .of_not_mem (by decide) (by decide)
  have hend : Tame Toc.Marker.commentEnd := .of_not_mem (by decide) (by decide)
  have hcolon : Tame ": " := .of_not_mem (by decide) (by decide)
  have hblank : Tame " " := .of_not_mem (by decide) (by decide)
  unfold Toc.Marker.comment
  split
  · exact (hstart.append hblank).append hend
  · next title htitle =>
    exact (((hstart.append hcolon).append (h title htitle).tame_escape).append hblank).append hend

theorem tame_line {segment : Text} (h : Escaped segment) (scan : Toc.MarkerScan) :
    Tame (scan.line segment).1 := by
  rcases Toc.Marker.line_eq_or scan segment with
    hsame | ⟨content, ending, marker, rfl, -, hsegment, hmarker, hline⟩
  · rw [hsame]
    exact h.tame
  · have hcontent : Escaped (Text.dropEndWhile Toc.MarkerScan.isEnding segment) :=
      ⟨h.tame.dropEndWhile (by decide), fun hmem => h.ampersand (Text.mem_of_mem_dropEndWhile hmem)⟩
    have htitle : ∀ title, marker.title = some title → Escaped title := by
      intro title htitle
      obtain ⟨quoted, hquoted, rfl⟩ := Toc.Marker.exists_of_title hmarker htitle
      exact (hcontent.trim.of_suffix hquoted).trim.unquote.trim
    rw [hline]
    exact (tame_comment htitle).append (h.tame.of_suffix ⟨_, hsegment.symm⟩)

theorem tame_lines {segments : List Text} (h : ∀ segment ∈ segments, Escaped segment)
    (scan : Toc.MarkerScan) : Tame (scan.lines segments).1 := by
  induction segments generalizing scan with
  | nil => exact .nil
  | cons segment segments ih =>
    rw [List.forall_mem_cons] at h
    exact (h.1.tame_line scan).append (ih h.2 _)

theorem tame_rewriteMarkers {markup : Text} (h : Escaped markup) :
    Tame (Toc.rewriteMarkers markup) :=
  tame_lines h.lines {}

end Escaped

/-! ## Preparing -/

theorem Token.substitute_empty (s : Text) : substitute {} s = s := by
  induction s using read_induction with
  | nil => rfl
  | token name s hname ih =>
    rw [substitute_written hname, ih]
    rfl
  | plain c s hstart ih => rw [substitute_cons hstart, ih]

theorem tame_rewrite {options : Options} {markup : Text} (h : Escaped markup) :
    Tame (rewrite options {} markup) := by
  have htokens := h.rewriteSiteTokens
  have hbreaks : Escaped (if options.newlineIsParagraph then
      hardLineBreaks (rewriteSiteTokens markup) else rewriteSiteTokens markup) := by
    split
    · exact htokens.hardLineBreaks
    · exact htokens
  unfold rewrite
  rw [Token.substitute_empty]
  exact (escaped_encodeLinkTargets hbreaks).tame_rewriteMarkers

/-- Without front matter and math, what is parsed is tame. -/
theorem tame_source_prepare {options : Options} {markup : Text} (path : Option Text)
    (hmatter : Text.hasPrefix "---" markup = false) (hbackslash : '\\' ∉ markup)
    (hampersand : '&' ∉ markup) (hmath : options.math = false) :
    Tame (prepare options path markup).source ∧ (prepare options path markup).container = [] := by
  have hunused (presentation : Bool) :
      FrontMatter.ofMarkup markup options.allowedKeys presentation = {} := by
    rw [FrontMatter.ofMarkup, FrontMatter.isUsed, hmatter, Bool.and_false, Bool.false_and]
    rfl
  unfold prepare prepareWith
  simp only [hunused]
  exact ⟨tame_rewrite ((escaped_applyFeatures hbackslash hampersand hmath).insert _ _ _),
    Token.substitute_empty []⟩

end Galley.Document
