import Galley.Proofs.Markdown.Verbatim
import Galley.Proofs.Render.Capture
import Galley.Proofs.Toc.Clean

/-!
# Pages without backslashes

What the renderer keeps stays without backslashes (`Renderer.Clean`) as long as the texts of the
events have none. So the page of a tame document has none if no text with a dollar sign is taken as
it stands (`Renderer.backslash_not_mem_html`).
-/

namespace Galley.Render

open Html (backslash_not_mem_escape backslash_not_mem_lineAttr backslash_not_mem_titleAttr
  backslash_not_mem_codeBlock backslash_not_mem_image backslash_not_mem_blockQuoteStart
  backslash_not_mem_alertStart backslash_not_mem_math)
open Markdown (Event InlineContext Located Tag TagEnd)

/-! ## Headings -/

structure OpenHeading.Clean (h : OpenHeading) : Prop where
  explicitId : ∀ id, h.explicitId = some id → '\\' ∉ id
  text : '\\' ∉ h.text
  html : '\\' ∉ h.html

/-- The headings and their entries have no backslash. -/
structure Headings.Clean (hs : Headings) : Prop where
  opened : ∀ h, hs.opened = some h → h.Clean
  toc : ∀ entry ∈ hs.toc, '\\' ∉ entry.title ∧ '\\' ∉ entry.id

namespace Headings

variable {hs : Headings}

theorem Clean.start (h : hs.Clean) (level : Nat) {id : Option Text} (line : Option Nat)
    (hid : ∀ s ∈ id.toList, '\\' ∉ s) : (hs.start level id line).Clean where
  opened := by
    rintro _ ⟨rfl⟩
    exact ⟨fun s hs => hid s (Option.mem_toList.2 hs), List.not_mem_nil, List.not_mem_nil⟩
  toc := h.toc

theorem Clean.pushText (h : hs.Clean) {text : Text} (htext : '\\' ∉ text) :
    (hs.pushText text).Clean where
  opened := by
    intro opened hopened
    obtain ⟨before, hbefore, rfl⟩ := Option.map_eq_some_iff.1 hopened
    have hclean := h.opened before hbefore
    exact ⟨hclean.explicitId, List.not_mem_append hclean.text htext, hclean.html⟩
  toc := h.toc

theorem Clean.pushHtml (h : hs.Clean) {html : Text} (hhtml : '\\' ∉ html) :
    (hs.pushHtml html).Clean where
  opened := by
    intro opened hopened
    obtain ⟨before, hbefore, rfl⟩ := Option.map_eq_some_iff.1 hopened
    have hclean := h.opened before hbefore
    exact ⟨hclean.explicitId, hclean.text, List.not_mem_append hclean.html hhtml⟩
  toc := h.toc

theorem backslash_not_mem_idOf {opened : OpenHeading} (h : opened.Clean) (ids : IdCounts) :
    '\\' ∉ idOf ids opened := by
  have hslug := backslash_not_mem_slug opened.text
  unfold idOf
  split
  · next id hid => exact h.explicitId id hid
  · simp only
    split
    · exact hslug
    · next n _ =>
      have hn := Text.not_mem_ofNat (c := '\\') (by decide) (n + 1)
      exact List.not_mem_append (List.not_mem_append hslug (by decide)) hn

theorem Clean.complete {heading : Heading} {left : Headings} (h : hs.Clean)
    (hcomplete : hs.complete = some (heading, left)) :
    '\\' ∉ heading.id ∧ '\\' ∉ heading.html ∧ left.Clean := by
  obtain ⟨opened, hopened, heq⟩ := Option.map_eq_some_iff.1 hcomplete
  obtain ⟨rfl, rfl⟩ := Prod.mk.inj heq
  have hclean := h.opened opened hopened
  have hid := backslash_not_mem_idOf hclean hs.ids
  have htitle : '\\' ∉ Text.trim opened.text := fun hmem => hclean.text (Text.mem_of_mem_trim hmem)
  exact ⟨hid, hclean.html, {
    opened := fun _ hnone => nomatch hnone
    toc := List.forall_mem_append.2 ⟨h.toc, List.forall_mem_singleton.2 ⟨htitle, hid⟩⟩ }⟩

end Headings

/-! ## Footnotes -/

namespace Footnotes

/-- The bodies of the notes have no backslash. -/
def Clean (fs : Footnotes) : Prop := ∀ note ∈ fs.notes, ∀ body, note.body = some body → '\\' ∉ body

variable {fs : Footnotes}

theorem forall_mem_modify {p : Note → Prop} {label : Text} {f : Note → Note}
    (hf : ∀ note, p note → p (f note)) {notes : List Note} (h : ∀ note ∈ notes, p note) :
    ∀ note ∈ modify label f notes, p note := by
  induction notes with
  | nil => exact h
  | cons first notes ih =>
    rw [List.forall_mem_cons] at h
    rw [modify]
    split
    · exact List.forall_mem_cons.2 ⟨hf first h.1, h.2⟩
    · exact List.forall_mem_cons.2 ⟨h.1, ih h.2⟩

theorem Clean.know (h : fs.Clean) (label : Text) : (fs.know label).Clean := by
  unfold Footnotes.know
  split
  · exact h
  · exact List.forall_mem_append.2 ⟨h, List.forall_mem_singleton.2 fun _ hbody => nomatch hbody⟩

theorem Clean.refer (h : fs.Clean) (label : Text) : (fs.refer label).Clean :=
  forall_mem_modify (f := ({ · with referenced := true })) (fun _ hnote => hnote) (h.know label)

theorem Clean.endDefinition (h : fs.Clean) {body : Text} (hbody : '\\' ∉ body) :
    (fs.endDefinition body).Clean := by
  unfold Footnotes.endDefinition
  split
  · exact h
  · next label _ =>
    exact forall_mem_modify (fun _ _ _ heq => Option.some.inj heq ▸ hbody) (h.know label)

theorem backslash_not_mem_items {notes : List Note}
    (h : ∀ note ∈ notes, ∀ body, note.body = some body → '\\' ∉ body) (n : Nat) :
    '\\' ∉ items n notes := by
  induction notes generalizing n with
  | nil => exact List.not_mem_nil
  | cons note notes ih =>
    rw [List.forall_mem_cons] at h
    have hn := Text.not_mem_ofNat (c := '\\') (by decide) n
    refine List.not_mem_append ?_ (ih h.2 (n + 1))
    unfold Note.item
    split
    · exact List.not_mem_nil
    · next body hbody =>
      have hback : '\\' ∉ if note.referenced then backReference n else [] := by
        split
        · unfold backReference
          simp [hn]
        · exact List.not_mem_nil
      simp [hn, h.1 body hbody, hback]

theorem Clean.sectionHtml (h : fs.Clean) : '\\' ∉ fs.sectionHtml := by
  have hitems := backslash_not_mem_items h 1
  unfold Footnotes.sectionHtml
  split
  · exact List.not_mem_nil
  · simp [hitems]

theorem backslash_not_mem_referenceHtml (n : Nat) : '\\' ∉ referenceHtml n := by
  have hn := Text.not_mem_ofNat (c := '\\') (by decide) n
  unfold referenceHtml
  simp [hn]

end Footnotes

/-! ## Steps -/

structure OpenCode.Clean (code : OpenCode) : Prop where
  language : ∀ lang, code.language = some lang → '\\' ∉ lang
  content : '\\' ∉ code.content

structure OpenImage.Clean (image : OpenImage) : Prop where
  url : '\\' ∉ image.url
  title : '\\' ∉ image.title
  alt : '\\' ∉ image.alt

namespace Renderer

theorem backslash_not_mem_listStart (start : Option Nat) {attrs : Text} (h : '\\' ∉ attrs) :
    '\\' ∉ listStart start attrs := by
  unfold listStart
  split
  · simp [h]
  · simp [h]
  · simp [h, Text.not_mem_ofNat]

theorem backslash_not_mem_cellStart (cursor : TableCursor) : '\\' ∉ cellStart cursor := by
  have hname : '\\' ∉ (if cursor.inHead then "<th" else "<td" : String).toList := by
    split <;> decide
  have hstyle : '\\' ∉ cursor.style := by
    unfold TableCursor.style
    split <;> decide
  exact List.not_mem_append (List.not_mem_append hname hstyle) (by decide)

theorem backslash_not_mem_headingHtml {heading : Heading} (hid : '\\' ∉ heading.id)
    (hhtml : '\\' ∉ heading.html) : '\\' ∉ headingHtml heading := by
  have hlevel := Text.not_mem_ofNat (c := '\\') (by decide) heading.level
  have htrim : '\\' ∉ Text.trim heading.html := fun hmem => hhtml (Text.mem_of_mem_trim hmem)
  unfold headingHtml
  simp [hlevel, backslash_not_mem_escape hid, backslash_not_mem_lineAttr, htrim]

theorem backslash_not_mem_placeholder (index : Nat) : '\\' ∉ placeholder index := by
  have hindex := Text.not_mem_ofNat (c := '\\') (by decide) index
  unfold placeholder
  simp [hindex]

/-- Nothing that the renderer keeps has a backslash. -/
structure Clean (r : Renderer) : Prop where
  output : '\\' ∉ r.output
  code : ∀ code, r.code = some code → code.Clean
  image : ∀ image, r.image = some image → image.Clean
  headings : r.headings.Clean
  footnotes : r.footnotes.Clean
  saved : ∀ saved, r.saved = some saved → '\\' ∉ saved
  markers : ∀ marker ∈ r.markers, ∀ title, marker.title = some title → '\\' ∉ title

namespace Clean

variable {r : Renderer} {s : Text}

theorem start : Clean {} where
  output := List.not_mem_nil
  code := fun _ h => nomatch h
  image := fun _ h => nomatch h
  headings := ⟨fun _ h => (nomatch h), fun _ h => (nomatch h)⟩
  footnotes := fun _ h => nomatch h
  saved := fun _ h => nomatch h
  markers := fun _ h => nomatch h

theorem write (h : r.Clean) (html : Text) (hhtml : '\\' ∉ html) : (r.write html).Clean :=
  { h with output := List.not_mem_append h.output hhtml }

theorem writeInline (h : r.Clean) {html : Text} (hhtml : '\\' ∉ html) :
    (r.writeInline html).Clean := by
  unfold Renderer.writeInline
  split
  · exact { h with headings := h.headings.pushHtml hhtml }
  · exact h.write html hhtml

theorem noteText (h : r.Clean) (hs : '\\' ∉ s) : (r.noteText s).Clean :=
  { h with headings := h.headings.pushText hs }

theorem startTag (h : r.Clean) {tag : Tag} (htag : ∀ s ∈ tag.texts, '\\' ∉ s) (line : Option Nat) :
    (r.startTag tag line).Clean := by
  have hattrs := backslash_not_mem_lineAttr line
  cases tag with
  | heading level id => exact { h with headings := h.headings.start level line htag }
  | blockQuote kind =>
    cases kind with
    | none => exact { h.write _ (backslash_not_mem_blockQuoteStart hattrs) with }
    | some kind => exact { h.write _ (backslash_not_mem_alertStart kind hattrs) with }
  | codeBlock info =>
    refine { h with code := ?_ }
    rintro _ ⟨rfl⟩
    refine ⟨fun lang hlang hmem => ?_, List.not_mem_nil⟩
    obtain ⟨text, rfl, hword⟩ := Option.bind_eq_some_iff.1 hlang
    exact htag text List.mem_cons_self (Text.mem_of_firstWord? hword hmem)
  | list start => exact h.write _ (backslash_not_mem_listStart start hattrs)
  | footnoteDefinition label =>
    refine { h with output := List.not_mem_nil, footnotes := h.footnotes.know label, saved := ?_ }
    rintro _ ⟨rfl⟩
    exact h.output
  | metadata => exact { h with }
  | htmlBlock => exact h
  | paragraph | item | definitionList => exact h.write _ (by simp [hattrs])
  | definitionTitle | definition => exact h.write _ (by decide)
  | table alignments =>
    have hwritten := h.write ("<table" ++ Html.lineAttr line ++ ">\n") (by simp [hattrs])
    exact { hwritten with }
  | tableHead => exact { h.write "<thead>\n<tr>\n" (by decide) with }
  | tableRow => exact { h.write "<tr>\n" (by decide) with }
  | tableCell => exact h.write _ (backslash_not_mem_cellStart r.table)
  | emphasis | strong | strikethrough | superscript | subscript => exact h.writeInline (by decide)
  | link url title =>
    have hurl := backslash_not_mem_escape (htag url List.mem_cons_self)
    have htitle := backslash_not_mem_titleAttr
      (htag title (List.mem_cons_of_mem _ List.mem_cons_self))
    exact h.writeInline (by simp [hurl, htitle])
  | image url title =>
    refine { h with image := ?_ }
    rintro _ ⟨rfl⟩
    exact ⟨htag url List.mem_cons_self, htag title (List.mem_cons_of_mem _ List.mem_cons_self),
      List.not_mem_nil⟩

theorem endHeading (h : r.Clean) : r.endHeading.Clean := by
  unfold Renderer.endHeading
  split
  · exact h
  · next heading headings hcomplete =>
    obtain ⟨hid, hhtml, hleft⟩ := h.headings.complete hcomplete
    exact { h.write _ (backslash_not_mem_headingHtml hid hhtml) with headings := hleft }

theorem endQuote (h : r.Clean) : r.endQuote.Clean := by
  unfold Renderer.endQuote
  split
  · exact { h.write Html.alertEnd (by decide) with }
  · exact { h.write Html.blockQuoteEnd (by decide) with }
  · exact h.write _ (by decide)

theorem endCode (h : r.Clean) : r.endCode.Clean := by
  have hcode : (r.code.getD {}).Clean := by
    cases hopened : r.code with
    | none => exact ⟨fun _ hnone => (nomatch hnone), List.not_mem_nil⟩
    | some code => exact h.code code hopened
  have hwritten := h.write _ (backslash_not_mem_codeBlock
    (fun lang hlang => hcode.language lang (Option.mem_toList.1 hlang)) hcode.content
    (backslash_not_mem_lineAttr (r.code.getD {}).line))
  exact { hwritten with code := fun _ hnone => nomatch hnone }

theorem endFootnote (h : r.Clean) : r.endFootnote.Clean := by
  unfold Renderer.endFootnote
  split
  · split
    · next output hsaved =>
      exact { h with
        output := h.saved output hsaved
        saved := fun _ hnone => nomatch hnone
        footnotes := h.footnotes.endDefinition h.output }
    · exact { h with footnotes := h.footnotes.endDefinition List.not_mem_nil }
  · exact h

theorem endImage (h : r.Clean) : r.endImage.Clean := by
  unfold Renderer.endImage
  split
  · exact h
  · next image himage =>
    have hclean := h.image image himage
    have hwritten := h.writeInline (backslash_not_mem_image hclean.url hclean.alt hclean.title)
    exact { hwritten with image := fun _ hnone => nomatch hnone }

theorem endTag (h : r.Clean) (tag : TagEnd) : (r.endTag tag).Clean := by
  cases tag with
  | heading level => exact h.endHeading
  | blockQuote kind => exact h.endQuote
  | codeBlock => exact h.endCode
  | footnoteDefinition => exact h.endFootnote
  | image => exact h.endImage
  | metadata => exact { h with }
  | htmlBlock => exact h
  | list ordered => exact h.write _ (by cases ordered <;> decide)
  | tableHead => exact { h.write "</tr>\n</thead>\n<tbody>\n" (by decide) with }
  | tableCell =>
    have hwritten := h.write (if r.table.inHead then "</th>\n" else "</td>\n")
      (by split <;> decide)
    exact { hwritten with }
  | emphasis | strong | strikethrough | superscript | subscript | link =>
    exact h.writeInline (by decide)
  | paragraph | item | definitionList | definitionTitle | definition | table | tableRow =>
    exact h.write _ (by decide)

theorem text (h : r.Clean) (hs : '\\' ∉ s) : (r.text s).Clean := by
  unfold Renderer.text
  split
  · exact h
  · split
    · next code hopened =>
      have hcode := h.code code hopened
      refine { h with code := ?_ }
      rintro _ ⟨rfl⟩
      exact ⟨hcode.language, List.not_mem_append hcode.content hs⟩
    · next image _ hopened =>
      have himage := h.image image hopened
      refine { h with image := ?_ }
      rintro _ ⟨rfl⟩
      exact ⟨himage.url, himage.title, List.not_mem_append himage.alt hs⟩
    · exact (h.noteText hs).writeInline (backslash_not_mem_escape hs)

theorem rawHtml (h : r.Clean) (hs : '\\' ∉ s) : (r.rawHtml s).Clean := by
  unfold Renderer.rawHtml
  split
  · exact h.writeInline hs
  · next marker hmarker =>
    have htitle : ∀ title, marker.title = some title → '\\' ∉ title := fun title htitle hmem =>
      hs (Toc.Marker.mem_of_ofComment? hmarker htitle hmem)
    exact { h.write _ (backslash_not_mem_placeholder r.markers.length) with
      markers := List.forall_mem_append.2 ⟨h.markers, List.forall_mem_singleton.2 htitle⟩ }

theorem footnoteReference (h : r.Clean) (label : Text) : (r.footnoteReference label).Clean :=
  have hreferred : Clean { r with footnotes := r.footnotes.refer label } :=
    { h with footnotes := h.footnotes.refer label }
  hreferred.writeInline (Footnotes.backslash_not_mem_referenceHtml _)

theorem step (h : r.Clean) {e : Event} (he : e.Clean) (line : Option Nat) :
    (r.step e line).Clean := by
  have hmath {source : Text} (hsource : '\\' ∉ source) (display : Bool) :
      ((r.noteText source).writeInline (Html.math source display)).Clean :=
    (h.noteText hsource).writeInline (backslash_not_mem_math display hsource)
  cases e with
  | start tag => exact h.startTag he line
  | stop tag => exact h.endTag tag
  | text s => exact h.text (he s List.mem_cons_self)
  | code s =>
    have hs := he s List.mem_cons_self
    exact (h.noteText hs).writeInline (by simp [backslash_not_mem_escape hs])
  | html s | inlineHtml s => exact h.rawHtml (he s List.mem_cons_self)
  | inlineMath s => exact hmath (he s List.mem_cons_self) false
  | displayMath s => exact hmath (he s List.mem_cons_self) true
  | footnoteReference label => exact h.footnoteReference label
  | softBreak => exact (h.noteText (by decide)).writeInline (by decide)
  | hardBreak | rule => exact h.write _ (by decide)
  | taskMarker checked => exact h.write _ (by cases checked <;> decide)

theorem steps (h : r.Clean) {events : List (Event × Option Nat)}
    (hevents : ∀ e ∈ events, e.1.Clean) : (r.steps events).Clean := by
  induction events generalizing r with
  | nil => exact h
  | cons e events ih =>
    rw [List.forall_mem_cons] at hevents
    exact ih (h.step hevents.1 e.2) hevents.2

end Clean

/-! ## Blocks -/

def withLines (lineOf? : Option (Nat → Nat)) (events : List Located) :
    List (Event × Option Nat) :=
  events.map fun e => (e.event, lineOf?.map (· e.offset))

/-- Rendering the events keeps that there are no backslashes. -/
def KeepsClean (events : List Located) : Prop :=
  ∀ (lineOf? : Option (Nat → Nat)) (r : Renderer), r.Clean →
    (r.steps (withLines lineOf? events)).Clean

namespace KeepsClean

variable {events : List Located}

theorem of_clean (h : ∀ e ∈ events, e.event.Clean) : KeepsClean events :=
  fun _ _ hr => hr.steps (List.forall_mem_map.2 h)

theorem append {later : List Located} (h : KeepsClean events) (hlater : KeepsClean later) :
    KeepsClean (events ++ later) := by
  intro lineOf? r hr
  rw [withLines, List.map_append, steps_append]
  exact hlater lineOf? _ (h lineOf? r hr)

theorem flatMap {α : Type} {f : α → List Located} {l : List α} (h : ∀ a ∈ l, KeepsClean (f a)) :
    KeepsClean (l.flatMap f) := by
  induction l with
  | nil => exact of_clean fun _ he => nomatch he
  | cons a l ih =>
    rw [List.forall_mem_cons] at h
    exact h.1.append (ih h.2)

theorem element (offset : Nat) {tag : Tag} (htag : ∀ s ∈ tag.texts, '\\' ∉ s)
    (h : KeepsClean events) : KeepsClean (InlineContext.element offset tag events) :=
  have hstart : KeepsClean [⟨.start tag, offset⟩] := of_clean (List.forall_mem_singleton.2 htag)
  have hstop : KeepsClean [⟨.stop tag.toEnd, offset⟩] :=
    of_clean (List.forall_mem_singleton.2 fun _ hs => nomatch hs)
  (hstart.append h).append hstop

end KeepsClean

theorem steps_metadata {r : Renderer} (h : r.inMetadata = true) (lines : List Text)
    (line : Option Nat) : r.steps (lines.map fun text => (.text text, line)) = r := by
  induction lines with
  | nil => rfl
  | cons text lines ih =>
    have hstep : r.step (.text text) line = r := by
      show r.text text = r
      rw [Renderer.text, if_pos h]
    exact (congrArg (fun r => Renderer.steps r _) hstep).trans ih

theorem keepsClean_metadata (offset : Nat) (lines : List Text) :
    KeepsClean (InlineContext.element offset .metadata
      (InlineContext.at_ offset (lines.map .text))) := by
  intro lineOf? r hr
  have hinside : Clean { r with inMetadata := true } := { hr with }
  have htexts : withLines lineOf? (InlineContext.at_ offset (lines.map .text)) =
      lines.map fun text => (.text text, lineOf?.map (· offset)) := by
    simp [withLines, InlineContext.at_]
  have hshown := steps_metadata (r := { r with inMetadata := true }) rfl lines
    (lineOf?.map (· offset))
  have hevents : withLines lineOf?
      (InlineContext.element offset .metadata (InlineContext.at_ offset (lines.map .text))) =
      [(.start .metadata, lineOf?.map (· offset))] ++
        withLines lineOf? (InlineContext.at_ offset (lines.map .text)) ++
        [(.stop .metadata, lineOf?.map (· offset))] := by
    simp [withLines, InlineContext.element, Tag.toEnd]
  rw [hevents, steps_append, steps_append, htexts]
  show Clean { Renderer.steps { r with inMetadata := true } _ with inMetadata := false }
  rw [hshown]
  exact { hr with }

section blocks

variable {ctx : InlineContext} (hmath : ctx.extensions.math = false)
  (hdefinitions : ctx.definitions.Clean)
include hmath hdefinitions

theorem keepsClean_cells (offset : Nat) {row : List Markdown.Source} (h : ∀ cell ∈ row, cell.Tame)
    (hverbatim : ∀ cell ∈ row, ∀ s ∈ ctx.sourceVerbatim cell, '$' ∉ s) :
    KeepsClean (ctx.cells offset row) :=
  .flatMap fun cell hcell => .element offset (fun _ hs => nomatch hs)
    (.of_clean (ctx.clean_inline hmath hdefinitions (h cell hcell) (hverbatim cell hcell) offset))

/-- Rendering a block of a tame document keeps that there are no backslashes. -/
theorem keepsClean_blockEvents {block : Markdown.Block} (h : block.Tame)
    (hverbatim : ∀ s ∈ ctx.blockVerbatim block, '$' ∉ s) : KeepsClean (ctx.blockEvents block) := by
  have hsource {source : Markdown.Source} (h : source.Tame)
      (hverbatim : ∀ s ∈ ctx.sourceVerbatim source, '$' ∉ s) (offset : Nat) :
      KeepsClean (ctx.inline offset source) :=
    .of_clean (ctx.clean_inline hmath hdefinitions h hverbatim offset)
  have hchildren {children : List Markdown.Block}
      (ih : ∀ child ∈ children, (∀ s ∈ ctx.blockVerbatim child, '$' ∉ s) →
        KeepsClean (ctx.blockEvents child))
      (hverbatim : ∀ s ∈ ctx.listVerbatim children, '$' ∉ s) :
      KeepsClean (ctx.listEvents children) := by
    rw [InlineContext.listEvents_eq_flatMap]
    rw [InlineContext.listVerbatim_eq_flatMap] at hverbatim
    exact .flatMap fun child hchild => ih child hchild fun s hs =>
      hverbatim s (List.mem_flatMap_of_mem hchild hs)
  induction h with
  | plain offset h => exact hsource h hverbatim offset
  | paragraph offset h | title offset h | possibleTitle offset h =>
    exact .element offset (fun _ hs => nomatch hs) (hsource h hverbatim offset)
  | heading offset level hid h => exact .element offset hid (hsource h hverbatim offset)
  | rule offset => exact .of_clean (List.forall_mem_singleton.2 fun _ hs => nomatch hs)
  | code offset hinfo h =>
    refine .element offset hinfo (.of_clean (List.forall_mem_map.2 (List.forall_mem_map.2 ?_)))
    exact fun line hline =>
      List.forall_mem_singleton.2 ((h line hline).not_mem (hverbatim line hline))
  | html offset h =>
    refine .element offset (fun _ hs => nomatch hs)
      (.of_clean (List.forall_mem_map.2 (List.forall_mem_map.2 fun piece hpiece => ?_)))
    have hclean := (h piece hpiece).not_mem (hverbatim _ (List.mem_map_of_mem hpiece))
    cases piece <;> exact List.forall_mem_singleton.2 hclean
  | metadata offset lines => exact keepsClean_metadata offset lines
  | table offset alignments hhead hrows =>
    have hcells := List.forall_mem_flatMap.1 hverbatim
    rw [List.forall_mem_append] at hcells
    have hfirst : KeepsClean (InlineContext.element offset .tableHead (ctx.cells offset _)) :=
      .element offset (fun _ hs => nomatch hs)
        (keepsClean_cells hmath hdefinitions offset hhead hcells.1)
    refine .element offset (fun _ hs => nomatch hs) (hfirst.append (.flatMap fun row hrow => ?_))
    exact .element offset (fun _ hs => nomatch hs) (keepsClean_cells hmath hdefinitions offset
      (hrows row hrow) fun cell hcell => hcells.2 cell (List.mem_flatten_of_mem hrow hcell))
  | quote offset kind h ih | list offset start h ih | item offset h ih | definitionList offset h ih
  | definition offset h ih | footnote offset label h ih =>
    exact .element offset (fun _ hs => nomatch hs) (hchildren ih hverbatim)

end blocks

/-! ## Pages -/

theorem backslash_not_mem_fillMarkers {toc : List Toc.Entry} {options : Toc.Options}
    (htoc : ∀ entry ∈ toc, '\\' ∉ entry.title ∧ '\\' ∉ entry.id) (hoptions : options.Clean)
    {markers : List Toc.Marker} (hmarkers : ∀ marker ∈ markers, ∀ title, marker.title = some title →
      '\\' ∉ title) (index : Nat) {html : Text} (hhtml : '\\' ∉ html) :
    '\\' ∉ fillMarkers toc options index markers html := by
  induction markers generalizing index html with
  | nil => exact hhtml
  | cons marker markers ih =>
    rw [List.forall_mem_cons] at hmarkers
    refine ih hmarkers.2 (index + 1) fun hmem => ?_
    rcases Text.mem_of_mem_replace hmem with hmem | hmem
    · exact Toc.backslash_not_mem_render htoc hoptions hmarkers.1 hmem
    · exact hhtml hmem

theorem Clean.backslash_not_mem_finish {r : Renderer} (h : r.Clean) {options : Toc.Options}
    (hoptions : options.Clean) : '\\' ∉ (r.finish options).1.html :=
  backslash_not_mem_fillMarkers h.headings.toc hoptions h.markers 0
    (List.not_mem_append h.output h.footnotes.sectionHtml)

/-- The page of a tame document has no backslash if no text with a dollar sign is taken as it
stands. -/
theorem backslash_not_mem_html {extensions : Markdown.Extensions} (hmath : extensions.math = false)
    {options : Toc.Options} (hoptions : options.Clean) (lineOf? : Option (Nat → Nat)) {text : Text}
    (htext : Markdown.Tame text) (hverbatim : ∀ s ∈ Markdown.verbatim extensions text, '$' ∉ s) :
    '\\' ∉ (({} : Renderer).renderLocated options lineOf?
      (Markdown.parse extensions text)).1.html := by
  obtain ⟨hblocks, hdefinitions⟩ := Markdown.Document.tame_ofText extensions htext
  have hkeeps : KeepsClean (Markdown.parse extensions text) := by
    unfold Markdown.verbatim at hverbatim
    unfold Markdown.parse
    rw [InlineContext.listVerbatim_eq_flatMap] at hverbatim
    rw [InlineContext.listEvents_eq_flatMap]
    exact .flatMap fun block hblock => keepsClean_blockEvents hmath hdefinitions
      (hblocks block hblock) fun s hs => hverbatim s (List.mem_flatMap_of_mem hblock hs)
  exact (hkeeps lineOf? {} .start).backslash_not_mem_finish hoptions

end Renderer

end Galley.Render
