import Galley.Markdown.Event

/-!
# Well-nested documents

The events of a well-nested document are what a forest of elements flattens to. The grammar says
for each element which content it has, and for each content which events and elements it holds: a
table is one head followed by rows of cells; paragraphs, headings and cells hold inline content
only; items and definitions hold blocks and inline content.
-/

namespace Galley.Markdown

/-- A forest: single events and elements, in order, each with the offsets of its events. -/
inductive Forest
  | nil
  | leaf (event : Event) (offset : Nat) (rest : Forest)
  | element (tag : Tag) (start stop : Nat) (inner rest : Forest)
deriving DecidableEq, Repr

/-- What may stand inside an element. -/
inductive Content
  | blocks
  | inlines
  /-- Blocks and inline content, as in an item. -/
  | flow
  | items
  | definitions
  /-- One head, followed by rows. -/
  | table
  | rows
  | cells
  /-- Text that is taken literally. -/
  | literal
  /-- The lines of an HTML block. -/
  | html
deriving DecidableEq, Repr

/-! ## The grammar -/

def Event.isInline : Event → Bool
  | .text _ | .code _ | .inlineHtml _ | .inlineMath _ | .displayMath _ | .footnoteReference _ => true
  | .softBreak | .hardBreak | .taskMarker _ => true
  | .start _ | .stop _ | .html _ | .rule => false

def Tag.isInline : Tag → Bool
  | .emphasis | .strong | .strikethrough | .superscript | .subscript | .link _ _ | .image _ _ => true
  | _ => false

/-- Whether the element is a block; there are six levels of headings. -/
def Tag.isBlock : Tag → Bool
  | .heading level _ => 1 ≤ level && level ≤ 6
  | .paragraph | .blockQuote _ | .codeBlock _ | .list _ | .footnoteDefinition _ | .metadata => true
  | .htmlBlock | .definitionList | .table _ => true
  | _ => false

def Tag.content : Tag → Content
  | .paragraph | .heading _ _ | .tableCell | .definitionTitle => .inlines
  | .emphasis | .strong | .strikethrough | .superscript | .subscript => .inlines
  | .link _ _ | .image _ _ => .inlines
  | .blockQuote _ | .footnoteDefinition _ => .blocks
  | .item | .definition => .flow
  | .list _ => .items
  | .definitionList => .definitions
  | .table _ => .table
  | .tableHead | .tableRow => .cells
  | .codeBlock _ | .metadata => .literal
  | .htmlBlock => .html

namespace Content

/-- Whether a single event may stand in the content. -/
def admits : Content → Event → Bool
  | .blocks, .rule => true
  | .inlines, e => e.isInline
  | .flow, .rule => true
  | .flow, e => e.isInline
  | .literal, .text _ => true
  | .html, .html _ => true
  | .html, .text _ => true
  | _, _ => false

/-- Whether an element may stand in the content. -/
def holds : Content → Tag → Bool
  | .blocks, t => t.isBlock
  | .inlines, t => t.isInline
  | .flow, t => t.isBlock || t.isInline
  | .items, .item => true
  | .definitions, .definitionTitle => true
  | .definitions, .definition => true
  | .table, .tableHead => true
  | .rows, .tableRow => true
  | .cells, .tableCell => true
  | _, _ => false

/-- What may stand behind an element of the content. -/
def after : Content → Content
  | .table => .rows
  | c => c

end Content

def Tag.isNote : Tag → Bool
  | .footnoteDefinition _ => true
  | _ => false

namespace Forest

/-- Whether the forest is content of this kind. -/
def fits : Content → Forest → Bool
  | c, .nil => c ≠ .table
  | c, .leaf e _ rest => c.admits e && rest.fits c
  | c, .element tag _ _ inner rest => c.holds tag && inner.fits tag.content && rest.fits c.after

def located : Forest → List Located
  | .nil => []
  | .leaf e offset rest => ⟨e, offset⟩ :: rest.located
  | .element tag start stop inner rest =>
    ⟨.start tag, start⟩ :: (inner.located ++ ⟨.stop tag.toEnd, stop⟩ :: rest.located)

def events (f : Forest) : List Event := f.located.map (·.event)

/-- Whether no footnote is defined inside the definition of another; `inside` says whether the
forest stands in one. -/
def notesApart (inside : Bool) : Forest → Bool
  | .nil => true
  | .leaf _ _ rest => rest.notesApart inside
  | .element tag _ _ inner rest =>
    !(inside && tag.isNote) && inner.notesApart (inside || tag.isNote) && rest.notesApart inside

section fits

variable {c : Content} {e : Event} {tag : Tag} {offset start stop : Nat} {inner rest : Forest}

theorem fits_leaf_iff :
    (leaf e offset rest).fits c = true ↔ c.admits e = true ∧ rest.fits c = true := by
  simp [fits]

theorem fits_element_iff : (element tag start stop inner rest).fits c = true ↔
    c.holds tag = true ∧ inner.fits tag.content = true ∧ rest.fits c.after = true := by
  simp [fits, and_assoc]

end fits

@[simp] theorem events_nil : nil.events = [] := rfl

@[simp] theorem events_leaf (e : Event) (offset : Nat) (rest : Forest) :
    (leaf e offset rest).events = e :: rest.events := rfl

@[simp] theorem events_element (tag : Tag) (start stop : Nat) (inner rest : Forest) :
    (element tag start stop inner rest).events =
      .start tag :: (inner.events ++ .stop tag.toEnd :: rest.events) := by
  simp [events, located]

section events

variable {P : Event → Prop} {e : Event} {tag : Tag} {offset start stop : Nat} {inner rest : Forest}

theorem forall_mem_events_leaf_iff :
    (∀ e' ∈ (leaf e offset rest).events, P e') ↔ P e ∧ ∀ e' ∈ rest.events, P e' := by
  rw [events_leaf, List.forall_mem_cons]

theorem forall_mem_events_element_iff :
    (∀ e ∈ (element tag start stop inner rest).events, P e) ↔
      P (.start tag) ∧ (∀ e ∈ inner.events, P e) ∧ P (.stop tag.toEnd) ∧ ∀ e ∈ rest.events, P e := by
  rw [events_element, List.forall_mem_cons, List.forall_mem_append, List.forall_mem_cons]

end events

end Forest

end Galley.Markdown
