import Galley.Markdown.Leaf
import Galley.Markdown.BlockStart
import Galley.Proofs.Markdown.Tame.Inline

/-!
# Leaves of tame texts

A cursor only moves on in its text, and what the open containers begin a line with has no
backslash. So the text of a leaf, which is put together from lines without those beginnings, is
tame, and the lines of code and of raw HTML have a dollar sign where they have a backslash.
-/

namespace Galley.Markdown

/-! ## Cursors -/

/-- The second text is a later place of the first, with no backslash before it. -/
def Passes (s t : Text) : Prop := ∃ before, s = before ++ t ∧ '\\' ∉ before

namespace Passes

variable {s t u : Text}

theorem refl (s : Text) : Passes s s := ⟨[], rfl, List.not_mem_nil⟩

theorem trans (hst : Passes s t) (htu : Passes t u) : Passes s u := by
  obtain ⟨a, rfl, ha⟩ := hst
  obtain ⟨b, rfl, hb⟩ := htu
  refine ⟨a ++ b, (List.append_assoc a b u).symm, ?_⟩
  rw [List.mem_append, not_or]
  exact ⟨ha, hb⟩

theorem suffix (h : Passes s t) : t <:+ s := by
  obtain ⟨before, rfl, -⟩ := h
  exact List.suffix_append before t

theorem cons {c : Char} (hc : c ≠ '\\') (s : Text) : Passes (c :: s) s :=
  ⟨[c], rfl, fun h => hc (List.mem_singleton.1 h).symm⟩

theorem backslash_not_mem_take (h : Passes s t) : '\\' ∉ s.take (s.length - t.length) := by
  obtain ⟨before, rfl, hbefore⟩ := h
  rw [List.length_append, Nat.add_sub_cancel, List.take_left]
  exact hbefore

end Passes

namespace Cursor

theorem suffix_skip (c : Cursor) (n : Nat) : (c.skip n).rest <:+ c.rest := List.drop_suffix n c.rest

theorem suffix_jumpTo (c : Cursor) (rest : Text) : (c.jumpTo rest).rest <:+ c.rest :=
  List.drop_suffix _ c.rest

theorem passes_useColumns (fuel missing : Nat) (c : Cursor) :
    Passes c.rest (useColumns fuel missing c).2.rest := by
  fun_induction useColumns fuel missing c with
  | case1 => exact .refl _
  | case2 => exact .refl _
  | case3 fuel missing c _ _ n ih => exact ih
  | case4 fuel missing c _ _ s hrest ih =>
    refine .trans ?_ ih
    rw [hrest]
    simpa [skip, hrest] using Passes.cons (show ' ' ≠ '\\' by decide) s
  | case5 fuel missing c _ _ s hrest ih =>
    refine .trans ?_ ih
    rw [hrest]
    simpa [skip, hrest] using Passes.cons (show '\t' ≠ '\\' by decide) s
  | case6 => exact .refl _

theorem passes_indent (c : Cursor) (n : Nat) : Passes c.rest (c.indent n).2.rest :=
  passes_useColumns _ _ c

theorem suffix_skipBlanks (c : Cursor) : c.skipBlanks.rest <:+ c.rest := c.suffix_skip _

theorem passes_quote? {c next : Cursor} (h : c.quote? = some next) : Passes c.rest next.rest := by
  unfold quote? at h
  split at h
  · next s hrest =>
    obtain rfl := Option.some.inj h
    refine .trans ?_ (passes_indent _ 1)
    rw [hrest]
    simpa [skip, hrest] using Passes.cons (show '>' ≠ '\\' by decide) s
  · cases h

end Cursor

theorem Container.passes_indented? {c next : Cursor} {n : Nat} (h : indented? c n = some next) :
    Passes c.rest next.rest := by
  unfold indented? at h
  simp only at h
  split at h
  · obtain rfl := Option.some.inj h
    exact c.passes_indent n
  · cases h

theorem Container.passes_continues? {c next : Cursor} {container : Container}
    (h : container.continues? c = some next) : Passes c.rest next.rest := by
  cases container with
  | quote kind => exact (c.passes_indent 3).trans (Cursor.passes_quote? h)
  | item indent => exact passes_indented? h
  | definition indent => exact passes_indented? h
  | footnote label => exact passes_indented? h
  | list | definitionList =>
    obtain rfl := Option.some.inj h
    exact .refl _

theorem passes_continued (c : Cursor) (containers : List Container) :
    Passes c.rest (continued c containers).2.rest := by
  induction containers generalizing c with
  | nil => exact .refl _
  | cons container containers ih =>
    rw [continued]
    split
    · exact .refl _
    · next next hnext => exact (Container.passes_continues? hnext).trans (ih next)

/-! ## Lines -/

theorem Tame.cutLine {s : Text} (h : Tame s) : Tame (cutLine s).1 := by
  by_cases hs : '\n' ∈ s
  · obtain ⟨line, rest, rfl, hline⟩ := List.eq_append_cons_of_mem hs
    rw [cutLine_append_newline hline]
    exact (h.of_cut (cut_cons (by decide) rest)).append (.of_not_mem (by decide) (by decide))
  · rw [cutLine_of_not_mem hs]
    exact h

theorem Tame.restOfLine {s : Text} (h : Tame s) : Tame (restOfLine s) :=
  h.takeWhile (by decide)

theorem Tame.dropReturns {s : Text} (h : Tame s) : Tame (dropReturns s) := by
  induction s with
  | nil => exact .nil
  | cons c s ih =>
    by_cases hc : c = '\r'
    · subst hc
      exact ih h.tail
    · have hcons : Markdown.dropReturns (c :: s) = c :: Markdown.dropReturns s := by
        simp [Markdown.dropReturns, hc]
      rw [hcons]
      refine ⟨fun hbackslash => ?_, fun hampersand => ?_, ih h.tail⟩
      · obtain ⟨d, r, rfl⟩ := List.exists_cons_of_ne_nil
          (List.ne_nil_of_mem (List.mem_of_mem_head? (h.1 hbackslash)))
        obtain rfl : d = '$' := Option.some.inj (h.1 hbackslash)
        rfl
      · obtain ⟨tail, htail, r, rfl⟩ := h.2.1 hampersand
        have hkept : ∀ tail ∈ entityTails, Markdown.dropReturns tail = tail := by decide
        refine ⟨tail, htail, Markdown.dropReturns r, ?_⟩
        have happend : Markdown.dropReturns (tail ++ r) =
            Markdown.dropReturns tail ++ Markdown.dropReturns r := List.filter_append _ _
        rw [happend, hkept tail htail]

theorem dollared_codeLine {line : Text} (h : Dollared line) : Dollared (codeLine line) := by
  have hkept : ∀ c, c ≠ '\r' → (c ∈ codeLine line ↔ c ∈ line) := by
    intro c hc
    unfold codeLine
    split
    · next last before hreverse =>
      have hmem : c ∈ line ↔ c ∈ line.reverse := List.mem_reverse.symm
      rw [hmem, hreverse]
      simp [hc, or_comm]
    · exact Iff.rfl
  intro hmem
  exact (hkept _ (by decide)).2 (h ((hkept _ (by decide)).1 hmem))

def HtmlPiece.text : HtmlPiece → Text
  | html s | indent s => s

namespace Surroundings

variable (env : Surroundings)

theorem passes_enter (c : Cursor) : Passes c.rest (env.enter c).2.rest :=
  passes_continued c env.containers

theorem resumes_resume? : Resumes env.resume? := by
  intro s next h
  unfold resume? at h
  simp only at h
  split at h
  · cases h
  · obtain rfl := Option.some.inj h
    exact ((env.passes_enter _).trans (Cursor.passes_indent _ 4)).suffix

/-! ## Code -/

theorem suffix_readCodeLine (c : Cursor) : (readCodeLine c).2.rest <:+ c.rest := c.suffix_jumpTo _

theorem dollared_readCodeLine {c : Cursor} (h : Tame c.rest) : Dollared (readCodeLine c).1 := by
  have hleft : '\\' ∉ leftOver c := fun hmem =>
    absurd (List.eq_of_mem_replicate hmem) (by decide)
  exact (Dollared.of_not_mem hleft).append (dollared_codeLine h.cutLine.dollared)

theorem readIndented_spec (fuel : Nat) (blank : Bool) (c : Cursor) :
    (env.readIndented fuel blank c).2.rest <:+ c.rest ∧
      (Tame c.rest → ∀ line ∈ (env.readIndented fuel blank c).1, Dollared line.2) := by
  induction fuel generalizing blank c with
  | zero => exact ⟨List.suffix_rfl, fun _ _ h => nomatch h⟩
  | succ fuel ih =>
    rw [readIndented]
    simp only
    let text := ((env.enter (readCodeLine c).2).2.indent 4).2
    have htext : text.rest <:+ c.rest :=
      ((env.passes_enter _).trans (Cursor.passes_indent _ 4)).suffix.trans (suffix_readCodeLine c)
    split
    · obtain ⟨hsuffix, hlines⟩ := ih (isBlankLine text.rest) text
      exact ⟨hsuffix.trans htext, fun h =>
        List.forall_mem_cons.2 ⟨dollared_readCodeLine h, hlines (h.of_suffix htext)⟩⟩
    · exact ⟨suffix_readCodeLine c, fun h => List.forall_mem_singleton.2 (dollared_readCodeLine h)⟩

theorem mem_dropBlankEnd {lines : List (Bool × Text)} {line : Text}
    (h : line ∈ (dropBlankEnd lines).1) : ∃ l ∈ lines, l.2 = line := by
  obtain ⟨l, hl, rfl⟩ := List.mem_map.1 h
  have hmem := (List.dropWhile_suffix _).subset (List.mem_reverse.1 hl)
  exact ⟨l, List.mem_reverse.1 hmem, rfl⟩

theorem readFenced_spec (fence : CodeFence) (indent fuel : Nat) (c : Cursor) :
    (env.readFenced fence indent fuel c).2.rest <:+ c.rest ∧
      (Tame c.rest → ∀ line ∈ (env.readFenced fence indent fuel c).1, Dollared line) := by
  induction fuel generalizing c with
  | zero => exact ⟨List.suffix_rfl, fun _ _ h => nomatch h⟩
  | succ fuel ih =>
    rw [readFenced]
    simp only
    have htext := (env.passes_enter c).trans (Cursor.passes_indent _ indent)
    split
    · exact ⟨List.suffix_rfl, fun _ _ h => nomatch h⟩
    · split
      · exact ⟨(Cursor.suffix_jumpTo _ _).trans (htext.trans (Cursor.passes_indent _ _)).suffix,
          fun _ _ h => nomatch h⟩
      · let text := ((env.enter c).2.indent indent).2
        obtain ⟨hsuffix, hlines⟩ := ih (readCodeLine text).2
        have hnext := (suffix_readCodeLine text).trans htext.suffix
        exact ⟨hsuffix.trans hnext, fun h => List.forall_mem_cons.2
          ⟨dollared_readCodeLine (h.of_suffix htext.suffix), hlines (h.of_suffix hnext)⟩⟩

theorem readInfo_spec (c : Cursor) :
    (readInfo c).2.rest <:+ c.rest ∧ (Tame c.rest → '\\' ∉ (readInfo c).1) :=
  ⟨c.suffix_jumpTo _, fun h =>
    ((h.cutLine.dropWhile isGap).dropEndWhile (by decide)).dropReturns.resolve⟩

theorem suffix_readMetadata (fuel : Nat) (c : Cursor) :
    (env.readMetadata fuel c).2.rest <:+ c.rest := by
  induction fuel generalizing c with
  | zero => exact List.suffix_rfl
  | succ fuel ih =>
    rw [readMetadata]
    simp only
    split
    · exact List.suffix_rfl
    · split
      · exact c.suffix_jumpTo _
      · exact (ih _).trans ((suffix_readCodeLine _).trans (env.passes_enter c).suffix)

/-! ## Raw HTML -/

theorem dollared_htmlLine (indent : Nat) {line : Text} (h : Tame line) :
    ∀ piece ∈ htmlLine indent line, Dollared piece.text := by
  have hindent : ∀ piece ∈ (if indent = 0 then []
      else [HtmlPiece.indent (List.replicate indent ' ')]), Dollared piece.text := by
    split
    · exact fun _ hp => nomatch hp
    · refine List.forall_mem_singleton.2 (.of_not_mem fun hmem => ?_)
      exact absurd (List.eq_of_mem_replicate hmem) (by decide)
  unfold htmlLine
  simp only
  split
  · next last before hreverse =>
    have hline : line = before.reverse ++ '\r' :: [last] := by
      rw [← List.reverse_reverse line, hreverse]
      simp
    rw [hline] at h
    have hbefore := (h.of_cut (cut_cons (by decide) [last])).dollared
    have hlast : Dollared [last] := h.of_append.tail.dollared
    exact List.forall_mem_append.2
      ⟨hindent, List.forall_mem_cons.2 ⟨hbefore, List.forall_mem_singleton.2 hlast⟩⟩
  · exact List.forall_mem_append.2 ⟨hindent, List.forall_mem_singleton.2 h.dollared⟩

theorem readHtml_spec (ending : RawHtml.BlockEnd) (fuel indent : Nat) (c : Cursor) :
    (env.readHtml ending fuel indent c).2.rest <:+ c.rest ∧
      (Tame c.rest → ∀ piece ∈ (env.readHtml ending fuel indent c).1, Dollared piece.text) := by
  induction fuel generalizing indent c with
  | zero => exact ⟨List.suffix_rfl, fun _ _ h => nomatch h⟩
  | succ fuel ih =>
    let start := c.jumpTo (cutLine c.rest).2
    let content := (env.enter start).2
    have hstart : start.rest <:+ c.rest := c.suffix_jumpTo _
    have hcontent : content.rest <:+ c.rest := (env.passes_enter start).suffix.trans hstart
    have hline (h : Tame c.rest) := dollared_htmlLine indent h.cutLine
    obtain ⟨hsuffix, hpieces⟩ := ih content.pending content
    have hmore (h : Tame c.rest) :=
      List.forall_mem_append.2 ⟨hline h, hpieces (h.of_suffix hcontent)⟩
    rw [readHtml]
    cases ending with
    | containing text =>
      simp only
      split
      · exact ⟨hstart, hline⟩
      · exact ⟨hsuffix.trans hcontent, hmore⟩
    | blankLine =>
      simp only
      split
      · exact ⟨hstart, hline⟩
      · exact ⟨hsuffix.trans hcontent, hmore⟩

/-! ## Tables -/

end Surroundings

namespace Table

theorem cutCell_spec (escaped : Bool) (line : Text) :
    line = (cutCell escaped line).1 ++ (cutCell escaped line).2 ∧ Cut (cutCell escaped line).2 := by
  induction line generalizing escaped with
  | nil => exact ⟨rfl, cut_nil⟩
  | cons c line ih =>
    rw [cutCell]
    split
    · next hpipe =>
      obtain ⟨rfl, -⟩ : c = '|' ∧ escaped = false := by simpa using hpipe
      exact ⟨rfl, cut_cons (by decide) line⟩
    · obtain ⟨heq, hcut⟩ := ih (c = '\\')
      exact ⟨congrArg (c :: ·) heq, hcut⟩

theorem replace_pipe {cell : Text} (h : Tame cell) : Text.replace "\\|" "|" cell = cell := by
  show Text.replaceFrom _ _ 0 cell = cell
  induction cell with
  | nil => rfl
  | cons c cell ih =>
    have hprefix : ¬ Text.hasPrefix "\\|" (c :: cell) = true := by
      rw [Text.hasPrefix_iff]
      rintro ⟨rest, hrest⟩
      obtain ⟨rfl, rfl⟩ := List.cons.inj hrest
      exact absurd (Option.some.inj (h.1 rfl)) (by decide)
    rw [Text.replaceFrom, if_neg hprefix, ih h.tail]

theorem tame_cutCells (fuel : Nat) {line : Text} (h : Tame line) :
    ∀ cell ∈ cutCells fuel line, Tame cell := by
  induction fuel generalizing line with
  | zero => exact fun _ hc => nomatch hc
  | succ fuel ih =>
    have hopened : Tame ((Text.dropPrefix? "|" line).getD line) := by
      cases hpipe : Text.dropPrefix? "|" line with
      | none => exact h
      | some rest =>
        rw [Text.dropPrefix?_eq_some_iff.1 hpipe] at h
        exact h.of_append
    have hline := hopened.dropWhile isGap
    rw [cutCells]
    simp only
    split
    · exact fun _ hc => nomatch hc
    · obtain ⟨heq, hcut⟩ := cutCell_spec false
        (((Text.dropPrefix? "|" line).getD line).dropWhile isGap)
      rw [heq] at hline
      have hcell := hline.of_cut hcut
      refine List.forall_mem_cons.2 ⟨?_, ih hline.of_append⟩
      rw [replace_pipe hcell]
      exact hcell

end Table

namespace Surroundings

variable (env : Surroundings)

theorem tame_tableRow (n : Nat) {line : Text} (h : Tame line) :
    ∀ source ∈ tableRow n (Table.cells line), source.Tame := by
  refine List.forall_mem_map.2 fun cell hcell => ⟨?_, fun _ hs => nomatch hs⟩
  rcases List.mem_append.1 hcell with hcell | hcell
  · exact Table.tame_cutCells _ h cell (List.mem_of_mem_take hcell)
  · rw [List.eq_of_mem_replicate hcell]
    exact .nil

theorem readRows_spec (n fuel : Nat) (c : Cursor) :
    (env.readRows n fuel c).2.rest <:+ c.rest ∧
      (Tame c.rest → ∀ row ∈ (env.readRows n fuel c).1, ∀ source ∈ row, source.Tame) := by
  induction fuel generalizing c with
  | zero => exact ⟨List.suffix_rfl, fun _ _ h => nomatch h⟩
  | succ fuel ih =>
    rw [readRows]
    simp only
    split
    · exact ⟨List.suffix_rfl, fun _ _ h => nomatch h⟩
    · have hline : (env.enter c).2.skipBlanks.rest <:+ c.rest :=
        (Cursor.suffix_skipBlanks _).trans (env.passes_enter c).suffix
      obtain ⟨hsuffix, hrows⟩ := ih (c.jumpTo _)
      refine ⟨hsuffix.trans (c.suffix_jumpTo _), fun h => List.forall_mem_cons.2
        ⟨tame_tableRow n (h.of_suffix hline).restOfLine, ?_⟩⟩
      exact hrows (h.of_suffix (c.suffix_jumpTo _))

/-! ## Definitions of labels -/

theorem suffix_of_definitionGap? {s next : Text} {newLine : Bool}
    (h : env.definitionGap? s = some (newLine, next)) : next <:+ s := by
  have hdrop : s.dropWhile isGap <:+ s := List.dropWhile_suffix _
  unfold definitionGap? at h
  simp only at h
  split at h
  · obtain ⟨-, rfl⟩ := Prod.mk.inj (Option.some.inj h)
    exact hdrop
  · next hending =>
    obtain ⟨resumed, hresumed, h⟩ := Option.bind_eq_some_iff.1 h
    split at h
    · cases h
    · obtain ⟨-, rfl⟩ := Prod.mk.inj (Option.some.inj h)
      exact (((List.dropWhile_suffix _).trans (env.resumes_resume? _ _ hresumed)).trans
        (suffix_of_afterEnding? hending)).trans hdrop

theorem clean_of_definitionTitle? {s title rest : Text} (hs : Tame s)
    (h : env.definitionTitle? s = some (title, rest)) : '\\' ∉ title := by
  obtain ⟨⟨source, behind⟩, hsource, h⟩ := Option.bind_eq_some_iff.1 h
  simp only at h
  split at h
  · obtain ⟨rfl, -⟩ := Prod.mk.inj (Option.some.inj h)
    exact ((Link.title?_spec env.resumes_resume? hsource).2 hs).dropReturns.resolve
  · cases h

theorem clean_of_definition? {s label rest : Text} {target : Target} (hs : Tame s)
    (h : env.definition? s = some (label, target, rest)) : target.Clean := by
  obtain ⟨inner, hinner, h⟩ := Option.bind_eq_some_iff.1 h
  obtain ⟨⟨label', behind⟩, hlabel, h⟩ := Option.bind_eq_some_iff.1 h
  obtain ⟨colon, hcolon, h⟩ := Option.bind_eq_some_iff.1 h
  obtain ⟨⟨_, source⟩, hsource, h⟩ := Option.bind_eq_some_iff.1 h
  obtain ⟨⟨url, last⟩, hurl, h⟩ := Option.bind_eq_some_iff.1 h
  rw [Text.dropPrefix?_eq_some_iff.1 hinner] at hs
  have hbehind := hs.of_append.of_suffix (Link.suffix_of_label? env.resumes_resume? hlabel)
  rw [Text.dropPrefix?_eq_some_iff.1 hcolon] at hbehind
  have hsourceTame := hbehind.of_append.of_suffix (env.suffix_of_definitionGap? hsource)
  obtain ⟨hsuffix, hclean⟩ := Link.url?_spec hurl
  have huntitled : Target.Clean { url } := ⟨hclean hsourceTame, List.not_mem_nil⟩
  simp only at h
  split at h
  · cases h
  · split at h
    · obtain ⟨-, rfl, -⟩ : label' = label ∧ { url } = target ∧ last = rest := by simpa using h
      exact huntitled
    · next newLine next hgap =>
      split at h
      · cases h
      · split at h
        · next title titled htitle =>
          obtain ⟨-, rfl, -⟩ : label' = label ∧ { url, title } = target ∧ titled = rest := by
            simpa using h
          have hnext := (hsourceTame.of_suffix hsuffix).of_suffix
            (env.suffix_of_definitionGap? hgap)
          exact ⟨hclean hsourceTame, env.clean_of_definitionTitle? hnext htitle⟩
        · split at h
          · obtain ⟨-, rfl, -⟩ : label' = label ∧ { url } = target ∧ last = rest := by simpa using h
            exact huntitled
          · cases h

/-! ## Headings -/

theorem mem_of_mem_words {c : Char} {word s : Text} (hword : word ∈ words s) (hc : c ∈ word) :
    c ∈ s := by
  fun_induction words s generalizing word with
  | case1 => cases hword
  | case2 d s _ ih => exact List.mem_cons_of_mem _ (ih hword hc)
  | case3 d _ => exact List.mem_singleton.1 hword ▸ hc
  | case4 d _ x s _ ih =>
    rcases List.mem_cons.1 hword with rfl | hword
    · exact List.mem_cons.2 (.inl (List.mem_singleton.1 hc))
    · exact List.mem_cons_of_mem _ (ih hword hc)
  | case5 d _ x s _ ih =>
    cases hrest : words (x :: s) with
    | nil =>
      rw [hrest] at hword
      obtain rfl := List.mem_singleton.1 hword
      exact List.mem_cons.2 (.inl (List.mem_singleton.1 hc))
    | cons first rest =>
      rw [hrest] at hword ih
      rcases List.mem_cons.1 hword with rfl | hword
      · rcases List.mem_cons.1 hc with rfl | hc
        · exact List.mem_cons_self
        · exact List.mem_cons_of_mem _ (ih List.mem_cons_self hc)
      · exact List.mem_cons_of_mem _ (ih (List.mem_cons_of_mem _ hword) hc)

theorem mem_of_mem_attributeId? {c : Char} {attributes id : Text}
    (h : attributeId? attributes = some id) (hc : c ∈ id) : c ∈ attributes := by
  unfold attributeId? at h
  refine List.foldlRecOn (motive := fun id? => ∀ id, id? = some id → c ∈ id → c ∈ attributes)
    (words attributes) _ (fun _ hnone => by cases hnone) (fun id? hid? word hword id hid hmem => ?_)
    id h hc
  split at hid
  · split at hid
    · exact hid? id hid hmem
    · obtain rfl := Option.some.inj hid
      exact mem_of_mem_words hword (List.mem_cons_of_mem _ hmem)
  · exact hid? id hid hmem

theorem headingAttributes?_spec {text before : Text} {id : Option Text} (h : Tame text)
    (hfound : headingAttributes? text = some (before, id)) :
    Tame before ∧ ∀ s ∈ id.toList, '\\' ∉ s := by
  unfold headingAttributes? at hfound
  split at hfound
  · next s hreverse =>
    split at hfound
    · next rest hrest =>
      obtain ⟨rfl, rfl⟩ := Prod.mk.inj (Option.some.inj hfound)
      obtain ⟨removed, -, htext⟩ := Text.exists_append_dropEndWhile
        (fun c => c = ' ' || c = '\t' || isEnding c) text
      have hkept : Text.dropEndWhile (fun c => c = ' ' || c = '\t' || isEnding c) text =
          rest.reverse ++ '\x7b' :: ((s.takeWhile isAttributeChar).reverse ++ ['\x7d']) := by
        have hreversed := List.takeWhile_append_dropWhile (p := isAttributeChar) (l := s)
        rw [hrest] at hreversed
        rw [← List.reverse_reverse (Text.dropEndWhile _ text), hreverse, List.reverse_cons,
          ← congrArg List.reverse hreversed]
        simp
      rw [htext, hkept, List.append_assoc] at h
      refine ⟨h.of_cut (cut_cons (by decide) _), fun name hname hmem => ?_⟩
      have hid := mem_of_mem_attributeId? (Option.mem_toList.1 hname) hmem
      exact Text.not_mem_takeWhile (by decide) s (List.mem_reverse.1 hid)
    · cases hfound
  · cases hfound

theorem headingContent_spec {trim : Text → Text} (htrim : ∀ s, Tame s → Tame (trim s))
    {source : Source} (h : source.Tame) : (env.headingContent trim source).1.Tame ∧
      ∀ s ∈ (env.headingContent trim source).2.toList, '\\' ∉ s := by
  unfold headingContent
  simp only
  split
  · exact ⟨⟨htrim _ h.text, h.hidden⟩, fun _ hs => nomatch hs⟩
  · next text id hfound =>
    split at hfound
    · obtain ⟨htext, hid⟩ := headingAttributes?_spec h.text hfound
      exact ⟨⟨htrim _ htext, h.hidden⟩, hid⟩
    · cases hfound

/-! ## Paragraphs -/

theorem isEnding_of_afterEnding? {s next : Text} (h : afterEnding? s = some next) :
    ∀ c ∈ s.take (s.length - next.length), isEnding c = true := by
  unfold afterEnding? at h
  split at h
  · obtain rfl := Option.some.inj h
    exact fun _ hc => nomatch hc
  · obtain rfl := Option.some.inj h
    simp [isEnding]
  · obtain rfl := Option.some.inj h
    rw [List.length_cons, List.length_cons, Nat.add_assoc, Nat.add_sub_cancel_left]
    simp [isEnding]
  · obtain rfl := Option.some.inj h
    simp [isEnding]
  · cases h

theorem readParagraph_spec (fuel : Nat) (c : Cursor) :
    (env.readParagraph fuel c).2.2.rest <:+ c.rest ∧
      (Tame c.rest → (env.readParagraph fuel c).1.Tame) := by
  have hline {c : Cursor} (h : Tame c.rest) : Source.Tame { text := restOfLine c.rest } :=
    ⟨h.restOfLine, fun _ hs => nomatch hs⟩
  induction fuel generalizing c with
  | zero => exact ⟨List.suffix_rfl, fun _ => ⟨.nil, fun _ hs => nomatch hs⟩⟩
  | succ fuel ih =>
    rw [readParagraph]
    simp only
    split
    · exact ⟨List.suffix_rfl, hline⟩
    · next next hnext =>
      have hstart := c.suffix_jumpTo next
      split
      · exact ⟨(Cursor.suffix_jumpTo _ _).trans hstart, hline⟩
      · split
        · exact ⟨hstart, hline⟩
        · have henter := env.passes_enter (c.jumpTo next)
          have hcontent := henter.suffix.trans hstart
          obtain ⟨hsuffix, hsource⟩ := ih (env.enter (c.jumpTo next)).2
          refine ⟨hsuffix.trans hcontent, fun h => ?_⟩
          have hrest := hsource (h.of_suffix hcontent)
          have hending := isEnding_of_afterEnding? hnext
          have hlineEnd : Tame ((c.rest.drop (restOfLine c.rest).length).take
              ((c.rest.drop (restOfLine c.rest).length).length - next.length)) :=
            .of_not_mem (fun hmem => absurd (hending _ hmem) (by decide))
              (fun hmem => absurd (hending _ hmem) (by decide))
          exact ⟨(h.restOfLine.append hlineEnd).append hrest.text,
            List.forall_mem_cons.2 ⟨henter.backslash_not_mem_take, hrest.hidden⟩⟩

end Surroundings

end Galley.Markdown
