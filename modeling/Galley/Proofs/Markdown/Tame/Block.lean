import Galley.Markdown.Document
import Galley.Proofs.Markdown.Tame.Leaf

/-!
# Blocks of tame texts

Reading a tame text block by block keeps that all blocks so far are tame: their leaves are, and the
lines of code and the pieces of raw HTML in them have a dollar sign where they have a backslash
(`OpenBlocks.Tame`). Opening, closing and moving blocks changes no text.
-/

namespace Galley.Markdown

/-- The blocks of a tame text. Metadata can have any text, as it is not shown. -/
inductive Block.Tame : Block → Prop
  | paragraph (offset : Nat) {source : Source} (h : source.Tame) : Tame (.paragraph offset source)
  | plain (offset : Nat) {source : Source} (h : source.Tame) : Tame (.plain offset source)
  | heading (offset level : Nat) {id : Option Text} {source : Source}
    (hid : ∀ s ∈ id.toList, '\\' ∉ s) (h : source.Tame) : Tame (.heading offset level id source)
  | rule (offset : Nat) : Tame (.rule offset)
  | code (offset : Nat) {info : Option Text} {lines : List Text}
    (hinfo : ∀ s ∈ info.toList, '\\' ∉ s) (h : ∀ line ∈ lines, Dollared line) :
    Tame (.code offset info lines)
  | html (offset : Nat) {pieces : List HtmlPiece} (h : ∀ piece ∈ pieces, Dollared piece.text) :
    Tame (.html offset pieces)
  | metadata (offset : Nat) (lines : List Text) : Tame (.metadata offset lines)
  | table (offset : Nat) (alignments : List ColumnAlignment) {head : List Source}
    {rows : List (List Source)} (hhead : ∀ source ∈ head, source.Tame)
    (hrows : ∀ row ∈ rows, ∀ source ∈ row, source.Tame) : Tame (.table offset alignments head rows)
  | quote (offset : Nat) (kind : Option AlertKind) {children : List Block}
    (h : ∀ child ∈ children, child.Tame) : Tame (.quote offset kind children)
  | list (offset : Nat) (start : Option Nat) {items : List Block}
    (h : ∀ item ∈ items, item.Tame) : Tame (.list offset start items)
  | item (offset : Nat) {children : List Block} (h : ∀ child ∈ children, child.Tame) :
    Tame (.item offset children)
  | definitionList (offset : Nat) {children : List Block} (h : ∀ child ∈ children, child.Tame) :
    Tame (.definitionList offset children)
  | title (offset : Nat) {source : Source} (h : source.Tame) : Tame (.title offset source)
  | possibleTitle (offset : Nat) {source : Source} (h : source.Tame) :
    Tame (.possibleTitle offset source)
  | definition (offset : Nat) {children : List Block} (h : ∀ child ∈ children, child.Tame) :
    Tame (.definition offset children)
  | footnote (offset : Nat) (label : Text) {children : List Block}
    (h : ∀ child ∈ children, child.Tame) : Tame (.footnote offset label children)

namespace Block.Tame

variable {block : Block}

theorem tighten (h : block.Tame) : block.tighten.Tame := by
  cases h with
  | paragraph offset h => exact .plain offset h
  | _ => constructor <;> assumption

theorem tightenItem (h : block.Tame) : block.tightenItem.Tame := by
  cases h with
  | item offset h => exact .item offset (List.forall_mem_map.2 fun child hc => (h child hc).tighten)
  | definition offset h =>
    exact .definition offset (List.forall_mem_map.2 fun child hc => (h child hc).tighten)
  | _ => constructor <;> assumption

theorem settle (h : block.Tame) : block.settle.Tame := by
  cases h with
  | possibleTitle offset h => exact .paragraph offset h
  | _ => constructor <;> assumption

end Block.Tame

theorem Frame.tame_blocks {f : Frame} (h : ∀ child ∈ f.children, child.Tame) :
    ∀ block ∈ f.blocks, block.Tame := by
  have hreverse : ∀ child ∈ f.children.reverse, child.Tame := fun child hc =>
    h child (List.mem_reverse.1 hc)
  have htight (tight : Bool) {items : List Block} (hitems : ∀ item ∈ items, item.Tame) :
      ∀ item ∈ (if tight then items.map Block.tightenItem else items), item.Tame := by
    split
    · exact List.forall_mem_map.2 fun item hi => (hitems item hi).tightenItem
    · exact hitems
  unfold Frame.blocks
  split
  · exact List.forall_mem_singleton.2 (.quote _ _ hreverse)
  · exact List.forall_mem_singleton.2 (.list _ _ (htight _ hreverse))
  · exact List.forall_mem_singleton.2 (.item _ hreverse)
  · have htaken : ∀ item ∈ f.children.reverse.takeWhile Block.isTitleOrDefinition, item.Tame :=
      fun item hi => hreverse item ((List.takeWhile_prefix _).subset hi)
    have hafter : ∀ block ∈ (f.children.reverse.drop
        (f.children.reverse.takeWhile Block.isTitleOrDefinition).length).map Block.settle,
        block.Tame :=
      List.forall_mem_map.2 fun child hc => (hreverse child (List.mem_of_mem_drop hc)).settle
    simp only
    exact List.forall_mem_append.2 ⟨fun block hb => hafter block (List.mem_reverse.1 hb),
      List.forall_mem_singleton.2 (.definitionList _ (htight _ htaken))⟩
  · exact List.forall_mem_singleton.2 (.definition _ hreverse)
  · exact List.forall_mem_singleton.2 (.footnote _ _ hreverse)

/-! ## Open blocks -/

namespace OpenBlocks

/-- The blocks and targets of a tame text while it is read. -/
structure Tame (b : OpenBlocks) : Prop where
  frames : ∀ f ∈ b.frames, ∀ block ∈ f.children, block.Tame
  top : ∀ block ∈ b.top, block.Tame
  targets : ∀ target ∈ b.targets, target.2.Clean

namespace Tame

variable {b : OpenBlocks} {extensions : Extensions}

theorem modifyBlocks (h : b.Tame) {change : List Block → List Block}
    (hchange : ∀ blocks : List Block, (∀ block ∈ blocks, block.Tame) →
      ∀ block ∈ change blocks, block.Tame) : (b.modifyBlocks change).Tame := by
  have hframes := h.frames
  unfold OpenBlocks.modifyBlocks
  split
  · next hnil => exact ⟨hnil ▸ hframes, hchange _ h.top, h.targets⟩
  · next f frames hcons =>
    rw [hcons, List.forall_mem_cons] at hframes
    exact ⟨List.forall_mem_cons.2 ⟨hchange _ hframes.1, hframes.2⟩, h.top, h.targets⟩

theorem modifyInnermost (h : b.Tame) (change : Container → Container) :
    (b.modifyInnermost change).Tame := by
  have hframes := h.frames
  unfold OpenBlocks.modifyInnermost
  split
  · exact h
  · next f frames hcons =>
    rw [hcons, List.forall_mem_cons] at hframes
    exact ⟨List.forall_mem_cons.2 hframes, h.top, h.targets⟩

theorem prepend (h : b.Tame) {blocks : List Block} (hblocks : ∀ block ∈ blocks, block.Tame) :
    (b.modifyBlocks (blocks ++ ·)).Tame :=
  h.modifyBlocks fun _ hold => List.forall_mem_append.2 ⟨hblocks, hold⟩

theorem add (h : b.Tame) {block : Block} (hblock : block.Tame) : (b.add block).Tame :=
  h.modifyBlocks fun _ hold => List.forall_mem_cons.2 ⟨hblock, hold⟩

theorem push (h : b.Tame) (container : Container) (offset : Nat) :
    (b.push container offset).Tame :=
  ⟨List.forall_mem_cons.2 ⟨fun _ hb => (List.not_mem_nil hb).elim, h.frames⟩, h.top, h.targets⟩

theorem close (h : b.Tame) : b.close.Tame := by
  have hframes := h.frames
  unfold OpenBlocks.close
  split
  · exact h
  · next f frames hcons =>
    rw [hcons, List.forall_mem_cons] at hframes
    have hrest (emptyItem : Bool) : Tame { b with frames, emptyItem } :=
      ⟨hframes.2, h.top, h.targets⟩
    exact (hrest _).prepend (Frame.tame_blocks hframes.1)

theorem closeMany (h : b.Tame) (n : Nat) : (b.closeMany n).Tame := by
  induction n generalizing b with
  | zero => exact h
  | succ n ih => exact ih h.close

theorem closeIf (h : b.Tame) (p : Container → Bool) : (b.closeIf p).Tame := by
  unfold OpenBlocks.closeIf
  split
  · exact h.close
  · exact h

theorem endEmptyItem (h : b.Tame) : b.endEmptyItem.Tame := by
  have hclosed : (if b.emptyItem && b.blankBefore then b.closeIf Container.isItem else b).Tame := by
    split
    · exact h.closeIf _
    · exact h
  exact ⟨hclosed.frames, hclosed.top, hclosed.targets⟩

theorem loosenOuter (h : b.Tame) : b.loosenOuter.Tame := by
  have hframes := h.frames
  unfold OpenBlocks.loosenOuter
  split
  · next hcons =>
    rw [hcons, List.forall_mem_cons, List.forall_mem_cons] at hframes
    exact ⟨List.forall_mem_cons.2 ⟨hframes.1, List.forall_mem_cons.2 hframes.2⟩, h.top, h.targets⟩
  · exact h

theorem endList (h : b.Tame) : b.endList.Tame := by
  have hclosed := h.endEmptyItem.closeIf Container.isList
  unfold OpenBlocks.endList
  simp only
  split
  · exact ⟨hclosed.loosenOuter.frames, hclosed.loosenOuter.top, hclosed.loosenOuter.targets⟩
  · exact hclosed

theorem separate (h : b.Tame) : b.separate.Tame := by
  unfold OpenBlocks.separate
  split
  · have hloose := h.modifyInnermost Container.loosen
    exact ⟨hloose.frames, hloose.top, hloose.targets⟩
  · exact h

theorem beginItem (h : b.Tame) (marker : ListMarker) (offset : Nat) :
    (b.beginItem marker offset).Tame := by
  have hlist := h.endEmptyItem.endList.push (.list true marker.mark marker.number) offset
  unfold OpenBlocks.beginItem
  simp only
  split
  · split
    · exact h.endEmptyItem.separate
    · exact ⟨hlist.frames, hlist.top, hlist.targets⟩
  · exact ⟨hlist.frames, hlist.top, hlist.targets⟩

theorem of_latest? (h : b.Tame) {block : Block} (hlatest : b.latest? = some block) :
    block.Tame := by
  unfold latest? at hlatest
  split at hlatest
  · exact h.top block (List.mem_of_mem_head? hlatest)
  · next f frames hcons =>
    have hframes := h.frames
    rw [hcons] at hframes
    exact hframes f List.mem_cons_self block (List.mem_of_mem_head? hlatest)

theorem beginDefinition? (h : b.Tame) {begun : OpenBlocks}
    (hbegun : b.beginDefinition? = some begun) : begun.Tame := by
  have htail : (b.modifyBlocks List.tail).Tame :=
    h.modifyBlocks fun _ hold block hb => hold block (List.mem_of_mem_tail hb)
  unfold OpenBlocks.beginDefinition? at hbegun
  split at hbegun
  · next offset source hlatest =>
    obtain rfl := Option.some.inj hbegun
    cases h.of_latest? hlatest with
    | paragraph _ hsource =>
      exact ((htail.push (.definitionList true) offset).add (.title offset hsource)).separate
  · next offset source hlatest =>
    obtain rfl := Option.some.inj hbegun
    cases h.of_latest? hlatest with
    | possibleTitle _ hsource => exact (htail.add (.title offset hsource)).separate
  · obtain rfl := Option.some.inj hbegun
    exact h.separate
  · cases hbegun

theorem define (h : b.Tame) (label : Text) {target : Target} (htarget : target.Clean) :
    (b.define label target).Tame :=
  ⟨h.frames, h.top, List.forall_mem_append.2 ⟨h.targets, List.forall_mem_singleton.2 htarget⟩⟩

theorem blankLine (h : b.Tame) : b.blankLine.Tame := by
  have hblank : Tame { b with blankBefore := true } := ⟨h.frames, h.top, h.targets⟩
  unfold OpenBlocks.blankLine
  split
  · exact h
  · simp only
    split
    · exact hblank.modifyInnermost _
    · exact hblank
  · exact hblank

theorem of_beginContent (h : b.Tame) {begun : OpenBlocks} {c : Cursor} {next : Option Cursor}
    (hbegun : b.beginContent c = (begun, next)) :
    begun.Tame ∧ ∀ cursor, next = some cursor → cursor.rest <:+ c.rest := by
  unfold beginContent at hbegun
  split at hbegun
  · obtain ⟨rfl, rfl⟩ := Prod.mk.inj hbegun
    exact ⟨⟨h.frames, h.top, h.targets⟩, fun _ heq => Option.some.inj heq ▸ c.suffix_jumpTo _⟩
  · obtain ⟨rfl, rfl⟩ := Prod.mk.inj hbegun
    exact ⟨h, fun _ heq => nomatch heq⟩

theorem openFootnote (h : b.Tame) (label : Text) (offset : Nat) :
    (b.openFootnote label offset).Tame := by
  have hpushed (p : Container → Bool) := (h.endList.closeIf p).push (.footnote label) offset
  exact ⟨(hpushed _).frames, (hpushed _).top, (hpushed _).targets⟩

end Tame

end OpenBlocks

end Galley.Markdown
