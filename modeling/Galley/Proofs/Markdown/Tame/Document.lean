import Galley.Proofs.Markdown.FirstBlock
import Galley.Proofs.Markdown.Tame.Block

/-!
# Documents of tame texts

Each step of reading a document goes on at a later place of its text and keeps that the blocks so
far are tame. So all blocks of a document with a tame text are tame, and the targets of its labels
have no backslash (`OpenBlocks.Tame.ofText`).
-/

namespace Galley.Markdown

/-! ## Beginnings of containers -/

namespace Cursor

theorem suffix_indent (c : Cursor) (n : Nat) : (c.indent n).2.rest <:+ c.rest :=
  (c.passes_indent n).suffix

theorem suffix_of_listItem? {c content : Cursor} {outer indent : Nat} {marker : ListMarker}
    (h : c.listItem? outer = some (marker, indent, content)) : content.rest <:+ c.rest := by
  obtain ⟨found, -, h⟩ := Option.bind_eq_some_iff.1 h
  have hstart := ((c.skip found.width).suffix_indent 1).trans (c.suffix_skip found.width)
  simp only at h
  split at h
  · cases h
  · split at h
    · obtain ⟨-, -, rfl⟩ := by simpa using h
      exact hstart
    · split at h
      · obtain ⟨-, -, rfl⟩ := by simpa using h
        exact (suffix_indent _ 4).trans hstart
      · obtain ⟨-, -, rfl⟩ := by simpa using h
        exact hstart

theorem suffix_of_task? {c content : Cursor} {checked : Bool}
    (h : c.task? = some (checked, content)) : content.rest <:+ c.rest := by
  have hskip := ((c.indent 3).2.suffix_skip 3).trans (c.suffix_indent 3)
  unfold task? at h
  simp only at h
  split at h
  · split at h
    · cases h
    · split at h
      · obtain ⟨-, rfl⟩ := Prod.mk.inj (Option.some.inj h)
        exact hskip
      · split at h
        · obtain ⟨-, rfl⟩ := Prod.mk.inj (Option.some.inj h)
          exact hskip
        · cases h
  · cases h

theorem suffix_of_definition? {c content : Cursor} {outer indent : Nat}
    (h : c.definition? outer = some (indent, content)) : content.rest <:+ c.rest := by
  unfold definition? at h
  split at h
  · obtain ⟨-, rfl⟩ := Prod.mk.inj (Option.some.inj h)
    exact (suffix_indent _ _).trans (c.suffix_skip 1)
  · cases h

theorem suffix_of_alert? {c next : Cursor} {kind : AlertKind} (h : c.alert? = some (kind, next)) :
    next.rest <:+ c.rest := by
  obtain ⟨⟨mark, found⟩, -, h⟩ := Option.bind_eq_some_iff.1 h
  obtain ⟨rest, -, h⟩ := Option.map_eq_some_iff.1 h
  obtain ⟨-, rfl⟩ := Prod.mk.inj h
  exact c.suffix_jumpTo rest

theorem suffix_of_footnote? {c content : Cursor} {label : Text}
    (h : c.footnote? = some (label, content)) : content.rest <:+ c.rest := by
  unfold footnote? at h
  split at h
  · split at h
    · obtain ⟨-, rfl⟩ := Prod.mk.inj (Option.some.inj h)
      exact c.suffix_jumpTo _
    · cases h
  · cases h

end Cursor

namespace OpenBlocks

/-! ## Opening containers -/

def Opened.cursor : Opened → Cursor
  | finished _ next => next
  | leaf _ _ content => content

namespace Tame

variable {b : OpenBlocks} (extensions : Extensions)

theorem openAlert (h : b.Tame) (next : Cursor) :
    (b.openAlert extensions next).blocks.Tame ∧
      (b.openAlert extensions next).cursor.rest <:+ next.rest := by
  unfold OpenBlocks.openAlert
  simp only
  split
  · exact ⟨h, List.suffix_rfl⟩
  · exact ⟨h, (Cursor.suffix_skipBlanks _).trans
      ((Surroundings.passes_enter _ next).trans (Cursor.passes_indent _ 4)).suffix⟩

theorem openContainers (h : b.Tame) (fuel : Nat) (task : Option Bool) (line : Cursor) :
    (openContainers extensions fuel task b line).blocks.Tame ∧
      (openContainers extensions fuel task b line).cursor.rest <:+ line.rest := by
  induction fuel generalizing task b line with
  | zero => exact ⟨h, List.suffix_rfl⟩
  | succ fuel ih =>
    have hline := line.suffix_indent 4
    have hdeeper {begun : OpenBlocks} (hbegun : begun.Tame) (task : Option Bool) {content : Cursor}
        (hcontent : content.rest <:+ line.rest) :
        (OpenBlocks.openContainers extensions fuel task begun content).blocks.Tame ∧
          (OpenBlocks.openContainers extensions fuel task begun content).cursor.rest
            <:+ line.rest := by
      obtain ⟨htame, hsuffix⟩ := ih hbegun task content
      exact ⟨htame, hsuffix.trans hcontent⟩
    unfold OpenBlocks.openContainers
    simp only
    split
    · exact ⟨h, List.suffix_rfl⟩
    · split
      · next label content hfootnote =>
        have hcontent : content.rest <:+ line.rest := by
          split at hfootnote
          · exact (Cursor.suffix_of_footnote? hfootnote).trans hline
          · cases hfootnote
        exact hdeeper (h.openFootnote label _) task hcontent
      · split
        · next marker indent content hitem =>
          have hcontent := (Cursor.suffix_of_listItem? hitem).trans hline
          have hpushed (offset : Nat) := (h.beginItem marker offset).push (.item indent) offset
          split
          · next begun next hbegun =>
            obtain ⟨htame, hnext⟩ := (hpushed _).of_beginContent hbegun
            exact ⟨htame, (hnext next rfl).trans hcontent⟩
          · next begun hbegun =>
            have htame := ((hpushed _).of_beginContent hbegun).1
            split
            · exact hdeeper htame task hcontent
            · next checked behind htask =>
              have hbehind : behind.rest <:+ line.rest := by
                split at htask
                · exact (Cursor.suffix_of_task? htask).trans hcontent
                · cases htask
              have hempty : Source.Tame { text := [], task := some checked } :=
                ⟨.nil, List.forall_mem_nil _⟩
              split
              · next marked next hmarked =>
                obtain ⟨hmarkedTame, hnext⟩ := htame.of_beginContent hmarked
                exact ⟨hmarkedTame.add (.paragraph _ hempty), (hnext next rfl).trans hbehind⟩
              · next marked hmarked =>
                exact hdeeper (htame.of_beginContent hmarked).1 _ hbehind
        · next begun indent content _ hdefinition =>
          split at hdefinition
          · obtain ⟨begun', hbegun, hdefinition⟩ := Option.bind_eq_some_iff.1 hdefinition
            obtain ⟨found, hfound, heq⟩ := Option.map_eq_some_iff.1 hdefinition
            obtain ⟨rfl, rfl⟩ := Prod.mk.inj heq
            have hcontent := (Cursor.suffix_of_definition? hfound).trans hline
            have hpushed (offset : Nat) :=
              (h.beginDefinition? hbegun).push (.definition indent) offset
            split
            · next opened next hopened =>
              obtain ⟨htame, hnext⟩ := (hpushed _).of_beginContent hopened
              exact ⟨htame, (hnext next rfl).trans hcontent⟩
            · next opened hopened =>
              exact hdeeper ((hpushed _).of_beginContent hopened).1 task hcontent
          · cases hdefinition
        · next content _ hquote =>
          have hcontent := (Cursor.passes_quote? hquote).suffix.trans hline
          split
          · exact hdeeper (h.endList.push (.quote none) _) task hcontent
          · next kind next halert =>
            have hnext : next.rest <:+ line.rest := by
              split at halert
              · exact (Cursor.suffix_of_alert? halert).trans hcontent
              · cases halert
            obtain ⟨htame, hsuffix⟩ :=
              (h.endList.push (.quote (some kind)) _).openAlert extensions next
            exact ⟨htame, hsuffix.trans hnext⟩
        · exact ⟨h, List.suffix_rfl⟩

/-! ## Reading leaves -/

theorem addParagraph (h : b.Tame) (task : Option Bool) {c : Cursor} (hc : Markdown.Tame c.rest) :
    (b.addParagraph extensions task c).1.Tame ∧
      (b.addParagraph extensions task c).2.rest <:+ c.rest := by
  generalize hread : b.addParagraph extensions task c = read
  unfold OpenBlocks.addParagraph at hread
  extract_lets behindDefinition ended env line at hread
  have hended : ended.Tame := by
    show (if behindDefinition then { b with blankBefore := false } else b.endList).Tame
    split
    · exact ⟨h.frames, h.top, h.targets⟩
    · exact h.endList
  clear_value behindDefinition ended
  split at hread
  · next alignments below _ =>
    subst hread
    obtain ⟨hsuffix, hrows⟩ :=
      env.readRows_spec alignments.length (c.rest.length + 1) (c.jumpTo below)
    have hbelow := c.suffix_jumpTo below
    exact ⟨hended.add (.table _ _ (Surroundings.tame_tableRow _ hc.restOfLine)
      (hrows (hc.of_suffix hbelow))), hsuffix.trans hbelow⟩
  · obtain ⟨hsuffix, hsource⟩ := env.readParagraph_spec (c.rest.length + 1) c
    have hmarked : Source.Tame { (env.readParagraph (c.rest.length + 1) c).1 with task } :=
      ⟨(hsource hc).text, (hsource hc).hidden⟩
    simp only at hread
    split at hread
    · subst hread
      have htrim : ∀ s, Markdown.Tame s → Markdown.Tame (Text.dropEndWhile isGap s) :=
        fun s hs => hs.dropEndWhile (by decide)
      obtain ⟨hcontent, hid⟩ := env.headingContent_spec htrim hmarked
      exact ⟨hended.add (.heading _ _ hid hcontent), hsuffix⟩
    · split at hread
      · subst hread
        exact ⟨hended.add (.possibleTitle _ hmarked), hsuffix⟩
      · subst hread
        exact ⟨hended.add (.paragraph _ hmarked), hsuffix⟩

end Tame

theorem tame_withoutClosing {text : Text} (h : Markdown.Tame text) :
    Markdown.Tame (withoutClosing text) := by
  have hline := h.dropEndWhile (p := fun c => c = ' ' || isEnding c) (by decide)
  unfold withoutClosing
  simp only
  split
  · exact .nil
  · next before hreverse =>
    obtain ⟨signs, -, hsigns⟩ := Text.exists_append_dropEndWhile (· = '#')
      (Text.dropEndWhile (fun c => c = ' ' || isEnding c) text)
    have hbefore := congrArg List.reverse hreverse
    rw [List.reverse_reverse, List.reverse_cons] at hbefore
    rw [hsigns, hbefore, List.append_assoc] at hline
    have hspaced := (hline.of_cut (cut_cons (by decide) _)).append
      (.of_not_mem (s := [' ']) (by decide) (by decide))
    rw [← hbefore] at hspaced
    exact hspaced.dropEndWhile (by decide)
  · exact hline

namespace Tame

variable {b : OpenBlocks} (extensions : Extensions)

theorem addHeading (h : b.Tame) (level : Nat) {c : Cursor} (hc : Markdown.Tame c.rest) :
    (b.addHeading extensions level c).1.Tame ∧
      (b.addHeading extensions level c).2.rest <:+ c.rest := by
  have hbehind := c.suffix_skip level
  unfold OpenBlocks.addHeading
  simp only
  split
  · exact ⟨h.add (.heading _ _ (fun _ hs => nomatch hs) ⟨.nil, fun _ hs => nomatch hs⟩),
      c.suffix_jumpTo _⟩
  · have hline : Source.Tame { text := (cutLine ((c.skip level).rest.dropWhile isGap)).1 } :=
      ⟨((hc.of_suffix hbehind).dropWhile isGap).cutLine, fun _ hs => nomatch hs⟩
    obtain ⟨hcontent, hid⟩ := (b.surroundings extensions).headingContent_spec
      (fun _ => tame_withoutClosing) hline
    exact ⟨h.add (.heading _ _ hid hcontent), c.suffix_jumpTo _⟩

theorem addLeaf (h : b.Tame) (task : Option Bool) {line : Cursor}
    (hline : Markdown.Tame line.rest) :
    (b.addLeaf extensions task line).1.Tame ∧
      (b.addLeaf extensions task line).2.rest <:+ line.rest := by
  have hindent := line.suffix_indent 4
  have hc := hline.of_suffix hindent
  have hended := h.endList
  unfold OpenBlocks.addLeaf
  simp only
  split
  · obtain ⟨hsuffix, hlines⟩ := (b.endList.surroundings extensions).readIndented_spec
      (line.rest.length + 1) false (line.indent 4).2
    have hcode : ∀ code ∈ (Surroundings.dropBlankEnd
        ((b.endList.surroundings extensions).readIndented (line.rest.length + 1) false
          (line.indent 4).2).1).1, Dollared code := by
      intro code hmem
      obtain ⟨l, hl, rfl⟩ := Surroundings.mem_dropBlankEnd hmem
      exact hlines hc l hl
    have hblank (blankBefore : Bool) : OpenBlocks.Tame { b.endList with blankBefore } :=
      ⟨hended.frames, hended.top, hended.targets⟩
    exact ⟨(hblank _).add (.code _ (fun _ hs => (nomatch hs)) hcode), hsuffix.trans hindent⟩
  · split
    · exact ⟨hended.add (.metadata _ _),
        ((Surroundings.suffix_readMetadata _ _ _).trans (Cursor.suffix_jumpTo _ _)).trans hindent⟩
    · split
      · next ending _ =>
        obtain ⟨hsuffix, hpieces⟩ := (b.endList.surroundings extensions).readHtml_spec ending
          (line.rest.length + 1) (line.indent 4).1 (line.indent 4).2
        exact ⟨hended.add (.html _ (hpieces hc)), hsuffix.trans hindent⟩
      · exact ⟨hended.add (.rule _), (Cursor.suffix_jumpTo _ _).trans hindent⟩
      · next level _ _ _ =>
        obtain ⟨htame, hsuffix⟩ := hended.addHeading extensions level hc
        exact ⟨htame, hsuffix.trans hindent⟩
      · next fence _ _ _ _ =>
        have hskip := ((line.indent 4).2.suffix_skip fence.length).trans hindent
        obtain ⟨hbody, hinfo⟩ := Surroundings.readInfo_spec ((line.indent 4).2.skip fence.length)
        obtain ⟨hsuffix, hlines⟩ := (b.endList.surroundings extensions).readFenced_spec fence
          (line.indent 4).1 (line.rest.length + 1)
          (Surroundings.readInfo ((line.indent 4).2.skip fence.length)).2
        have hall := hbody.trans hskip
        exact ⟨hended.add (.code _ (List.forall_mem_singleton.2 (hinfo (hline.of_suffix hskip)))
          (hlines (hline.of_suffix hall))), hsuffix.trans hall⟩
      · split
        · next label target rest hdefined =>
          exact ⟨h.define label (Surroundings.clean_of_definition? _ hc hdefined),
            (Cursor.suffix_jumpTo _ _).trans hindent⟩
        · obtain ⟨htame, hsuffix⟩ := h.addParagraph extensions task hc
          exact ⟨htame, hsuffix.trans hindent⟩

/-! ## Reading a document -/

theorem readBlock (h : b.Tame) {c : Cursor} (hc : Markdown.Tame c.rest) :
    (b.readBlock extensions c).1.Tame ∧ (b.readBlock extensions c).2.rest <:+ c.rest := by
  unfold OpenBlocks.readBlock
  simp only
  have hcontinued := (passes_continued c b.containers).suffix
  have hclosed := h.closeMany (b.frames.length - (continued c b.containers).1)
  obtain ⟨htame, hsuffix⟩ := hclosed.openContainers extensions
    (c.rest.length + 1) none (continued c b.containers).2
  have hcursor := hsuffix.trans hcontinued
  split
  · next hfinished =>
    rw [hfinished] at htame hcursor
    exact ⟨htame, hcursor⟩
  · next hleaf =>
    rw [hleaf] at htame hcursor
    split
    · exact ⟨htame.blankLine, (Cursor.suffix_jumpTo _ _).trans hcursor⟩
    · obtain ⟨hadded, hbehind⟩ := htame.addLeaf extensions _ (hc.of_suffix hcursor)
      exact ⟨hadded, hbehind.trans hcursor⟩

theorem readBlocks (fuel : Nat) (h : b.Tame) {c : Cursor} (hc : Markdown.Tame c.rest) :
    (readBlocks extensions fuel b c).Tame := by
  induction fuel generalizing b c with
  | zero => exact h
  | succ fuel ih =>
    unfold OpenBlocks.readBlocks
    split
    · exact h
    · obtain ⟨htame, hsuffix⟩ := h.readBlock extensions hc
      exact ih htame (c := (b.readBlock extensions c).2.newLine) (hc.of_suffix hsuffix)

theorem ofText {text : Text} (h : Markdown.Tame text) :
    (ofText extensions text).Tame :=
  have hstart : OpenBlocks.Tame {} :=
    ⟨fun _ hf => (nomatch hf), fun _ hb => (nomatch hb), fun _ ht => (nomatch ht)⟩
  (hstart.readBlocks extensions _ h).closeMany _

end Tame

end OpenBlocks

/-- The blocks and definitions of a document with a tame text. -/
theorem Document.tame_ofText (extensions : Extensions) {text : Text} (h : Tame text) :
    (∀ block ∈ (ofText extensions text).blocks, block.Tame) ∧
      (ofText extensions text).definitions.Clean :=
  have hread := OpenBlocks.Tame.ofText extensions h
  ⟨fun block hb => hread.top block (List.mem_reverse.1 hb), hread.targets⟩

end Galley.Markdown
