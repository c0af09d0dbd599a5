import Galley.Proofs.Markdown.Tame.Document

/-!
# Texts that are taken as they stand

Code, raw HTML and links to themselves are shown as they stand in the source, so an escape in them
stays. Every other text of a tame document is shown without a backslash
(`Inline.Tame.clean_events`).
-/

namespace Galley.Markdown

/-- The texts of an event that a page shows. -/
def Event.texts : Event → List Text
  | .start tag => tag.texts
  | .text s | .code s | .html s | .inlineHtml s | .inlineMath s | .displayMath s => [s]
  | _ => []

def Event.Clean (e : Event) : Prop := ∀ s ∈ e.texts, '\\' ∉ s

/-! ## Inline elements -/

namespace Inline

mutual

/-- The texts of an element that are shown as they stand in the source: code, raw HTML, and links
that show their own target. -/
def verbatim : Inline → List Text
  | .code s | .html s => [s]
  | .span (.link url _) [.text s] => if s = url ∧ namesItself url = true then [url] else []
  | .span _ children => listVerbatim children
  | _ => []

def listVerbatim : List Inline → List Text
  | [] => []
  | element :: elements => element.verbatim ++ listVerbatim elements

end

theorem listVerbatim_eq_flatMap (elements : List Inline) :
    listVerbatim elements = elements.flatMap verbatim := by
  induction elements with
  | nil => rfl
  | cons element elements ih => rw [listVerbatim, ih, List.flatMap_cons]

theorem listEvents_eq_flatMap (elements : List Inline) :
    listEvents elements = elements.flatMap events := by
  induction elements with
  | nil => rfl
  | cons element elements ih => rw [listEvents, ih, List.flatMap_cons]

theorem mem_verbatim_span {tag : Tag} {children : List Inline} {s : Text}
    (h : s ∈ listVerbatim children) : s ∈ (Inline.span tag children).verbatim := by
  unfold verbatim
  split
  · next heq => cases heq
  · next heq => cases heq
  · next heq =>
    obtain ⟨-, rfl⟩ := Inline.span.inj heq
    exact absurd h List.not_mem_nil
  · next heq =>
    obtain ⟨-, rfl⟩ := Inline.span.inj heq
    exact h
  · next hspan => exact absurd rfl (hspan tag children)

/-- The events of an element of a tame text. -/
theorem Tame.clean_events {e : Inline} (h : e.Tame) (hverbatim : ∀ s ∈ e.verbatim, '$' ∉ s) :
    ∀ event ∈ e.events, event.Clean := by
  induction h with
  | text h => exact List.forall_mem_singleton.2 (List.forall_mem_singleton.2 h)
  | code h | html h =>
    exact List.forall_mem_singleton.2 (List.forall_mem_singleton.2
      (h.not_mem (hverbatim _ List.mem_cons_self)))
  | note _ | softBreak | hardBreak =>
    exact List.forall_mem_singleton.2 fun _ hs => nomatch hs
  | run h length _ _ =>
    refine List.forall_mem_singleton.2 (List.forall_mem_singleton.2 fun hmem => ?_)
    exact h (List.eq_of_mem_replicate hmem).symm
  | own h hname =>
    have hurl := h.not_mem (hverbatim _ (by simp [verbatim, hname]))
    intro event hevent
    obtain rfl | rfl | rfl : event = _ ∨ event = _ ∨ event = _ := by
      simpa [events, listEvents] using hevent
    · exact List.forall_mem_cons.2 ⟨hurl, List.forall_mem_singleton.2 List.not_mem_nil⟩
    · exact List.forall_mem_singleton.2 hurl
    · exact fun _ hs => nomatch hs
  | @span tag children htag _ ih =>
    rw [events, listEvents_eq_flatMap]
    refine List.forall_mem_cons.2 ⟨htag, List.forall_mem_append.2 ⟨?_, ?_⟩⟩
    · refine List.forall_mem_flatMap.2 fun child hchild => ih child hchild fun s hs => ?_
      apply hverbatim s (mem_verbatim_span _)
      rw [listVerbatim_eq_flatMap]
      exact List.mem_flatMap_of_mem hchild hs
    · exact List.forall_mem_singleton.2 fun _ hs => nomatch hs

theorem clean_listEvents {elements : List Inline} (h : ∀ e ∈ elements, e.Tame)
    (hverbatim : ∀ s ∈ listVerbatim elements, '$' ∉ s) :
    ∀ event ∈ listEvents elements, event.Clean := by
  rw [listEvents_eq_flatMap]
  rw [listVerbatim_eq_flatMap] at hverbatim
  exact List.forall_mem_flatMap.2 fun e he =>
    (h e he).clean_events fun s hs => hverbatim s (List.mem_flatMap_of_mem he hs)

end Inline

/-! ## Blocks -/

namespace InlineContext

/-- The texts of a leaf that are shown as they stand. -/
def sourceVerbatim (ctx : InlineContext) (source : Source) : List Text :=
  Inline.listVerbatim (source.inlines ctx.extensions ctx.definitions)

mutual

/-- The texts of a block that are shown as they stand; metadata is not shown. -/
def blockVerbatim (ctx : InlineContext) : Block → List Text
  | .paragraph _ source | .plain _ source | .heading _ _ _ source | .title _ source
  | .possibleTitle _ source => ctx.sourceVerbatim source
  | .rule _ | .metadata _ _ => []
  | .code _ _ lines => lines
  | .html _ pieces => pieces.map HtmlPiece.text
  | .table _ _ head rows => (head ++ rows.flatten).flatMap ctx.sourceVerbatim
  | .quote _ _ children | .list _ _ children | .item _ children | .definitionList _ children
  | .definition _ children | .footnote _ _ children => listVerbatim ctx children

def listVerbatim (ctx : InlineContext) : List Block → List Text
  | [] => []
  | block :: blocks => ctx.blockVerbatim block ++ listVerbatim ctx blocks

end

theorem listVerbatim_eq_flatMap (ctx : InlineContext) (blocks : List Block) :
    ctx.listVerbatim blocks = blocks.flatMap ctx.blockVerbatim := by
  induction blocks with
  | nil => rfl
  | cons block blocks ih => rw [listVerbatim, ih, List.flatMap_cons]

theorem listEvents_eq_flatMap (ctx : InlineContext) (blocks : List Block) :
    ctx.listEvents blocks = blocks.flatMap ctx.blockEvents := by
  induction blocks with
  | nil => rfl
  | cons block blocks ih => rw [listEvents, ih, List.flatMap_cons]

variable {ctx : InlineContext} (hmath : ctx.extensions.math = false)
  (hdefinitions : ctx.definitions.Clean)
include hmath hdefinitions

theorem clean_inline {source : Source} (h : source.Tame)
    (hverbatim : ∀ s ∈ ctx.sourceVerbatim source, '$' ∉ s) (offset : Nat) :
    ∀ e ∈ ctx.inline offset source, e.event.Clean := by
  refine List.forall_mem_map.2 (List.forall_mem_append.2 ⟨?_, ?_⟩)
  · intro event hevent
    obtain ⟨checked, -, rfl⟩ := Option.map_eq_some_iff.1 (Option.mem_toList.1 hevent)
    exact fun _ hs => nomatch hs
  · exact Inline.clean_listEvents (h.inlines hmath hdefinitions) hverbatim

end InlineContext

/-- The texts of a document that are shown as they stand in its source: the lines of code blocks
and of raw HTML, and in the text of the other blocks code, raw HTML and links to themselves. -/
def verbatim (extensions : Extensions) (text : Text) : List Text :=
  let document := Document.ofText extensions text
  InlineContext.listVerbatim ⟨extensions, document.definitions⟩ document.blocks

end Galley.Markdown
