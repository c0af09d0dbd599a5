import Galley.Markdown.Document
import Galley.Proofs.Markdown.Metadata

/-!
# The first block of a document

Without definition lists no block that is closed at the top is taken back, so the block that the
first step of reading leaves there is the first block of the document
(`OpenBlocks.suffix_readBlocks`).
-/

namespace Galley.Markdown

namespace OpenBlocks

variable (b : OpenBlocks)

/-! ## What stays at the top -/

theorem suffix_prepend (blocks : List Block) : b.top <:+ (b.modifyBlocks (blocks ++ ·)).top := by
  unfold modifyBlocks
  split
  · exact List.suffix_append blocks b.top
  · exact List.suffix_rfl

theorem suffix_add (block : Block) : b.top <:+ (b.add block).top := b.suffix_prepend [block]

theorem suffix_push (container : Container) (offset : Nat) :
    b.top <:+ (b.push container offset).top := List.suffix_rfl

theorem suffix_close : b.top <:+ b.close.top := by
  unfold close
  split
  · exact List.suffix_rfl
  · next f frames _ =>
    exact suffix_prepend { b with frames, emptyItem := _ } f.blocks

theorem suffix_closeMany (n : Nat) : b.top <:+ (b.closeMany n).top := by
  induction n generalizing b with
  | zero => exact List.suffix_rfl
  | succ n ih => exact b.suffix_close.trans (ih b.close)

theorem suffix_closeIf (p : Container → Bool) : b.top <:+ (b.closeIf p).top := by
  unfold closeIf
  split
  · exact b.suffix_close
  · exact List.suffix_rfl

theorem suffix_endEmptyItem : b.top <:+ b.endEmptyItem.top := by
  unfold endEmptyItem
  simp only
  split
  · exact b.suffix_closeIf _
  · exact List.suffix_rfl

theorem top_loosenOuter : b.loosenOuter.top = b.top := by
  unfold loosenOuter
  split <;> rfl

theorem suffix_endList : b.top <:+ b.endList.top := by
  have hclosed := b.suffix_endEmptyItem.trans (b.endEmptyItem.suffix_closeIf Container.isList)
  unfold endList
  simp only
  split
  · rw [top_loosenOuter]
    exact hclosed
  · exact hclosed

theorem top_modifyInnermost (change : Container → Container) :
    (b.modifyInnermost change).top = b.top := by
  unfold modifyInnermost
  split <;> rfl

theorem top_separate : b.separate.top = b.top := by
  unfold separate
  split
  · exact b.top_modifyInnermost _
  · rfl

theorem suffix_beginItem (marker : ListMarker) (offset : Nat) :
    b.top <:+ (b.beginItem marker offset).top := by
  have hended := b.suffix_endEmptyItem.trans b.endEmptyItem.suffix_endList
  unfold beginItem
  simp only
  split
  · split
    · rw [top_separate]
      exact b.suffix_endEmptyItem
    · exact hended
  · exact hended

theorem suffix_openFootnote (label : Text) (offset : Nat) :
    b.top <:+ (b.openFootnote label offset).top :=
  b.suffix_endList.trans (b.endList.suffix_closeIf _)

theorem top_blankLine : b.blankLine.top = b.top := by
  unfold blankLine
  split
  · rfl
  · simp only
    split
    · rw [top_modifyInnermost]
    · rfl
  · rfl

theorem top_of_beginContent {b begun : OpenBlocks} {c : Cursor} {next : Option Cursor}
    (h : b.beginContent c = (begun, next)) : begun.top = b.top := by
  unfold beginContent at h
  split at h
  · obtain ⟨rfl, -⟩ := Prod.mk.inj h
    rfl
  · obtain ⟨rfl, -⟩ := Prod.mk.inj h
    rfl

def Opened.blocks : Opened → OpenBlocks
  | finished blocks _ => blocks
  | leaf blocks _ _ => blocks

theorem top_openAlert (extensions : Extensions) (next : Cursor) :
    (b.openAlert extensions next).blocks.top = b.top := by
  unfold openAlert
  simp only
  split <;> rfl

/-! ## Opening containers -/

variable {extensions : Extensions} (hdefinitions : extensions.definitionLists = false)
include hdefinitions

theorem suffix_openContainers (fuel : Nat) (task : Option Bool) (line : Cursor) :
    b.top <:+ (openContainers extensions fuel task b line).blocks.top := by
  induction fuel generalizing task b line with
  | zero => exact List.suffix_rfl
  | succ fuel ih =>
    unfold openContainers
    simp only [hdefinitions]
    split
    · exact List.suffix_rfl
    · split
      · next label content _ =>
        exact (b.suffix_openFootnote label _).trans (ih _ task content)
      · split
        · next marker indent content _ =>
          let offset := (line.indent 4).2.offset - (line.indent 4).1
          have hitem := (b.suffix_beginItem marker offset).trans
            (suffix_push (b.beginItem marker offset) (.item indent) offset)
          split
          · next begun next hbegun =>
            rw [← top_of_beginContent hbegun] at hitem
            exact hitem
          · next begun hbegun =>
            rw [← top_of_beginContent hbegun] at hitem
            split
            · exact hitem.trans (ih begun task content)
            · split
              · next marked next hmarked =>
                rw [← top_of_beginContent hmarked] at hitem
                exact hitem.trans (marked.suffix_add _)
              · next marked hmarked =>
                rw [← top_of_beginContent hmarked] at hitem
                exact hitem.trans (ih marked _ _)
        · next h => cases h
        · next content _ =>
          split
          · exact (b.suffix_endList.trans (suffix_push _ (.quote none) _)).trans (ih _ task _)
          · next kind _ _ =>
            rw [top_openAlert]
            exact b.suffix_endList.trans (suffix_push _ (.quote (some kind)) _)
        · exact List.suffix_rfl

/-! ## Reading leaves -/

omit hdefinitions in
theorem suffix_addParagraph (task : Option Bool) (c : Cursor) :
    b.top <:+ (b.addParagraph extensions task c).1.top := by
  have hended (p : Prop) [Decidable p] :
      b.top <:+ (if p then { b with blankBefore := false } else b.endList).top := by
    split
    · exact List.suffix_rfl
    · exact b.suffix_endList
  unfold addParagraph
  simp only
  split
  · exact (hended _).trans (suffix_add _ _)
  · split
    · exact (hended _).trans (suffix_add _ _)
    · split
      · exact (hended _).trans (suffix_add _ _)
      · exact (hended _).trans (suffix_add _ _)

omit hdefinitions in
theorem suffix_addHeading (level : Nat) (c : Cursor) :
    b.top <:+ (b.addHeading extensions level c).1.top := by
  unfold addHeading
  simp only
  split
  · exact b.suffix_add _
  · exact b.suffix_add _

omit hdefinitions in
theorem suffix_addLeaf (task : Option Bool) (line : Cursor) :
    b.top <:+ (b.addLeaf extensions task line).1.top := by
  have hended {ended : OpenBlocks} (htop : ended.top = b.endList.top) (block : Block) :
      b.top <:+ (ended.add block).top := by
    have hlist := b.suffix_endList
    rw [← htop] at hlist
    exact hlist.trans (ended.suffix_add block)
  unfold addLeaf
  simp only
  split
  · apply hended
    rfl
  · split
    · exact hended rfl _
    · split
      · exact hended rfl _
      · exact hended rfl _
      · exact b.suffix_endList.trans (b.endList.suffix_addHeading _ _)
      · exact hended rfl _
      · split
        · exact List.suffix_rfl
        · exact b.suffix_addParagraph task _

/-! ## Reading a document -/

theorem suffix_readBlock (c : Cursor) : b.top <:+ (b.readBlock extensions c).1.top := by
  unfold readBlock
  simp only
  have hclosed := b.suffix_closeMany (b.frames.length - (continued c b.containers).1)
  have hopened := hclosed.trans
    (suffix_openContainers _ hdefinitions (c.rest.length + 1) none (continued c b.containers).2)
  split
  · next hfinished =>
    rw [hfinished] at hopened
    exact hopened
  · next hleaf =>
    rw [hleaf] at hopened
    split
    · rw [top_blankLine]
      exact hopened
    · exact hopened.trans (suffix_addLeaf _ _ _)

theorem suffix_readBlocks (fuel : Nat) (c : Cursor) :
    b.top <:+ (readBlocks extensions fuel b c).top := by
  induction fuel generalizing b c with
  | zero => exact List.suffix_rfl
  | succ fuel ih =>
    unfold readBlocks
    split
    · exact List.suffix_rfl
    · exact (b.suffix_readBlock hdefinitions c).trans (ih _ _)

theorem head?_blocks_ofText {text : Text} {block : Block} (htext : text ≠ [])
    (hread : (({} : OpenBlocks).readBlock extensions (.ofLine text 0)).1.top = [block]) :
    ∃ blocks, (ofText extensions text).blocks = block :: blocks := by
  have hempty : (Cursor.ofLine text 0).rest.isEmpty = false := by simpa [Cursor.ofLine] using htext
  have hsuffix : [block] <:+ (ofText extensions text).top := by
    rw [← hread]
    unfold ofText readBlocks
    rw [hempty]
    exact (suffix_readBlocks _ hdefinitions _ _).trans (suffix_closeMany _ _)
  obtain ⟨later, hlater⟩ := hsuffix
  refine ⟨later.reverse, ?_⟩
  rw [blocks, ← hlater, List.reverse_append]
  rfl

end OpenBlocks

theorem exists_parse_eq {extensions : Extensions} (hdefinitions : extensions.definitionLists = false)
    {text : Text} {block : Block} (htext : text ≠ [])
    (hread : (OpenBlocks.readBlock {} extensions (.ofLine text 0)).1.top = [block]) :
    ∃ ctx events, parse extensions text = InlineContext.blockEvents ctx block ++ events := by
  obtain ⟨blocks, hblocks⟩ := OpenBlocks.head?_blocks_ofText hdefinitions htext hread
  let ctx : InlineContext := ⟨extensions, (Document.ofText extensions text).definitions⟩
  refine ⟨ctx, ctx.listEvents blocks, ?_⟩
  show ctx.listEvents (OpenBlocks.ofText extensions text).blocks = _
  rw [hblocks]
  rfl

/-! ## A document that begins with dashes -/

def Extensions.metadataOnly : Extensions := { metadata := true }

/-- The events of a block begin, but not with metadata. -/
def Block.StartsOtherwise (block : Block) : Prop :=
  ∀ ctx : InlineContext, ∃ first events,
    ctx.blockEvents block = first :: events ∧ first.event ≠ .start .metadata

theorem OpenBlocks.top_addParagraph (c : Cursor) :
    ∃ block, (addParagraph {} .metadataOnly none c).1.top = [block] ∧ block.StartsOtherwise := by
  have htable (s : Text) : Surroundings.table? ⟨.metadataOnly, []⟩ s = none := rfl
  have hsurroundings : surroundings {} .metadataOnly = ⟨.metadataOnly, []⟩ := rfl
  have hended : endList {} = {} := rfl
  unfold addParagraph
  simp only [innermost?, List.head?_nil, Option.map_none, hended, Bool.false_eq_true, if_false,
    hsurroundings, htable, ite_self]
  split
  · exact ⟨_, rfl, fun ctx => ⟨_, _, rfl, by simp⟩⟩
  · exact ⟨_, rfl, fun ctx => ⟨_, _, rfl, by simp⟩⟩

section dashes

variable {s : Text} (offset : Nat)

theorem Cursor.listItem?_dashes (outer : Nat) :
    (ofLine ('-' :: '-' :: s) offset).listItem? outer = none := by
  have hindent : (((ofLine ('-' :: '-' :: s) offset).skip 1).indent 1).1 = 0 := by
    rw [indent_of_not_blank 1 rfl]
    · simp [ofLine, skip]
    · simp [ofLine, skip]
  have hend : ((ofLine ('-' :: '-' :: s) offset).skip 1).atEnd = false :=
    isSome_afterEnding?_cons '-' s
  have hmarker : ListMarker.atStart? (ofLine ('-' :: '-' :: s) offset).rest = some ⟨'-', none, 1⟩ :=
    rfl
  unfold listItem?
  rw [hmarker]
  simp [hindent, hend]

variable (hdashes : ∃ r, s = '-' :: '-' :: r)
include hdashes

theorem Cursor.indent_dashes (n : Nat) : (ofLine s offset).indent n = (0, ofLine s offset) := by
  obtain ⟨r, rfl⟩ := hdashes
  apply indent_of_not_blank n rfl
  · simp [ofLine]
  · simp [ofLine]

namespace OpenBlocks

theorem openContainers_dashes (fuel : Nat) :
    openContainers .metadataOnly fuel none {} (.ofLine s offset) =
      .leaf {} none (.ofLine s offset) := by
  obtain ⟨r, rfl⟩ := hdashes
  cases fuel with
  | zero => rfl
  | succ fuel =>
    have hquote : (Cursor.ofLine ('-' :: '-' :: r) offset).quote? = none := rfl
    unfold openContainers
    rw [Cursor.indent_dashes offset ⟨r, rfl⟩]
    simp [Cursor.listItem?_dashes, hquote, Extensions.metadataOnly]

theorem readBlock_dashes :
    readBlock {} .metadataOnly (.ofLine s offset) =
      addLeaf {} .metadataOnly none (.ofLine s offset) := by
  have hblank : afterBlank? (Cursor.ofLine s offset).rest = none := by
    obtain ⟨r, rfl⟩ := hdashes
    rfl
  have hcontinued : continued (.ofLine s offset) (containers {}) = (0, .ofLine s offset) := rfl
  have hclosed : closeMany {} 0 = {} := rfl
  unfold readBlock
  simp only [hcontinued, hclosed, List.length_nil, Nat.sub_zero,
    openContainers_dashes offset hdashes, hblank]

theorem addLeaf_of_beginsMetadata (h : beginsMetadata s = true) :
    addLeaf {} .metadataOnly none (.ofLine s offset) =
      let read := Surroundings.readMetadata ⟨.metadataOnly, []⟩ (s.length + 1)
        ((Cursor.ofLine s offset).jumpTo (cutLine s).2)
      ({ top := [.metadata offset read.1] }, read.2) := by
  unfold addLeaf
  rw [Cursor.indent_dashes offset hdashes]
  have hbegins : beginsMetadata (Cursor.ofLine s offset).rest = true := h
  simp only [hbegins, Extensions.metadataOnly, reduceCtorEq, if_false, decide_true, Bool.and_self,
    if_true, Prod.mk.injEq]
  exact ⟨rfl, rfl⟩

theorem addLeaf_of_not_beginsMetadata (h : beginsMetadata s = false) :
    ∃ block, (addLeaf {} .metadataOnly none (.ofLine s offset)).1.top = [block] ∧
      block.StartsOtherwise := by
  have hparagraph := top_addParagraph (.ofLine s offset)
  unfold addLeaf
  rw [Cursor.indent_dashes offset hdashes]
  obtain ⟨r, rfl⟩ := hdashes
  have hhtml : RawHtml.block? ('-' :: '-' :: r) = none := rfl
  have hheading : headingLevel? ('-' :: '-' :: r) = none := by simp [headingLevel?, runLength]
  have hfence : CodeFence.atStart? ('-' :: '-' :: r) = none := by simp [CodeFence.atStart?]
  have hlabel (env : Surroundings) : env.definition? ('-' :: '-' :: r) = none := rfl
  simp only [Cursor.ofLine] at hparagraph ⊢
  simp only [h, hhtml, hheading, hfence, hlabel]
  cases afterRule? ('-' :: '-' :: r) with
  | some next => exact ⟨_, rfl, fun ctx => ⟨_, _, rfl, by simp⟩⟩
  | none => exact hparagraph

end OpenBlocks

/-- A document that begins with dashes has metadata at its start exactly if its text begins with
it. -/
theorem parse_startsMetadata_iff :
    (∃ start events, parse .metadataOnly s = ⟨.start .metadata, start⟩ :: events) ↔
      beginsMetadata s = true := by
  have hs : s ≠ [] := by
    rintro rfl
    obtain ⟨r, hr⟩ := hdashes
    cases hr
  cases hbegins : beginsMetadata s with
  | true =>
    have hleaf := OpenBlocks.addLeaf_of_beginsMetadata 0 hdashes hbegins
    rw [← OpenBlocks.readBlock_dashes 0 hdashes] at hleaf
    obtain ⟨ctx, events, hevents⟩ := exists_parse_eq rfl hs (congrArg (·.1.top) hleaf)
    simp only [iff_true]
    exact ⟨_, _, hevents⟩
  | false =>
    obtain ⟨block, htop, hother⟩ := OpenBlocks.addLeaf_of_not_beginsMetadata 0 hdashes hbegins
    rw [← OpenBlocks.readBlock_dashes 0 hdashes] at htop
    obtain ⟨ctx, events, hevents⟩ := exists_parse_eq rfl hs htop
    obtain ⟨first, later, hfirst, hne⟩ := hother ctx
    simp only [Bool.false_eq_true, iff_false]
    rintro ⟨start, others, hstart⟩
    rw [hevents, hfirst] at hstart
    exact hne (congrArg Located.event (List.cons.inj hstart).1)

end dashes

end Galley.Markdown
