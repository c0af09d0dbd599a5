import Galley.Proofs.Html.Comment
import Galley.Proofs.Render.Writing
import Galley.Proofs.Toc.Nesting

/-!
# Rendering a well-nested document

The page of a well-nested document is nested: each element that rendering opens is closed exactly
once, the last opened first. This does not depend on the texts of the document, on the options of
its tables of contents or on where its lines are.

The induction is on the forest. The head of a table opens the body of the table, which only the end
of the table closes; every other element leaves the open elements as they were.
-/

namespace Galley.Markdown

/-- The open elements that an element leaves behind. -/
def Tag.unclosed : Tag → List Text
  | .tableHead => ["tbody"]
  | _ => []

/-- The open elements that the content leaves behind. -/
def Content.unclosed : Content → List Text
  | .table => ["tbody"]
  | _ => []

theorem Content.ne_inlines {c : Content} {tag : Tag} (h : c.holds tag = true)
    (htag : tag.isInline = false) : c ≠ .inlines := by
  rintro rfl
  exact absurd (htag.symm.trans h) Bool.false_ne_true

theorem Content.level_of_holds {c : Content} {level : Nat} {id : Option Text}
    (h : c.holds (.heading level id) = true) : 1 ≤ level ∧ level ≤ 6 := by
  have hblock : (Tag.heading level id).isBlock = true := by
    cases c with
    | blocks => exact h
    | flow => simpa [holds, Tag.isInline] using h
    | _ => cases h
  simpa [Tag.isBlock] using hblock

theorem Content.unclosed_eq {c : Content} {tag : Tag} (h : c.holds tag = true) :
    c.unclosed = c.after.unclosed ++ tag.unclosed := by
  cases tag <;> cases c <;> first | rfl | exact absurd h (by simp [holds, Tag.isBlock, Tag.isInline])

/-- Raw HTML in the event is the comment of a marker. -/
def Event.OnlyMarkers : Event → Prop
  | .html source | .inlineHtml source => Toc.Marker.IsComment source
  | _ => True

end Galley.Markdown

namespace Galley.Render.Renderer

open Html (Balanced Walk isPlain lineAttr tags?)
open Markdown (Content Event Forest Tag)

/-! ## Single events -/

section leaves

variable {r : Renderer} {s : List Text}

theorem moves_text (r : Renderer) (text : Text) (s : List Text) : Moves r (r.text text) s s := by
  unfold Renderer.text
  split
  · exact Moves.refl r s
  · split
    · refine Moves.of_silent ?_ s
      exact Writes.of_silent rfl rfl rfl rfl rfl rfl
    · refine Moves.of_silent ?_ s
      exact Writes.of_silent rfl rfl rfl rfl rfl rfl
    · have htext := Balanced.of_isPlain (Html.isPlain_escape text)
      exact (Moves.of_silent (Writes.noteText r text) s).trans (Moves.writeInline _ htext s)

theorem moves_rawHtml {html : Text} (h : Toc.Marker.IsComment html) (r : Renderer)
    (s : List Text) : Moves r (r.rawHtml html) s s := by
  obtain ⟨marker, hread, htitle⟩ := Toc.Marker.exists_ofComment?_of_isComment h
  unfold rawHtml
  rw [hread]
  refine ⟨_, [], ⟨rfl, by simp [write], rfl, rfl, rfl, fun hr => ⟨hr.notes, ?_⟩⟩,
    ⟨[], visibleTags?_placeholder r.markers.length, rfl⟩, Balanced.nil⟩
  intro other hother
  rcases List.mem_append.1 hother with hmem | hmem
  · exact hr.titles other hmem
  · rwa [List.mem_singleton.1 hmem]

theorem balanced_referenceHtml (n : Nat) : Balanced (Footnotes.referenceHtml n) := by
  intro s
  refine Walk.of_tags (Footnotes.tags?_referenceHtml n) ?_
  rw [Html.openAfter?_start (by decide), Html.openAfter?_start (by decide), Html.openAfter?_stop]
  exact Html.openAfter?_stop "sup" [] s

theorem moves_footnoteReference (r : Renderer) (label : Text) (s : List Text) :
    Moves r (r.footnoteReference label) s s := by
  have hrefer : Writes r { r with footnotes := r.footnotes.refer label } [] [] :=
    ⟨(List.append_nil _).symm, by simp, rfl, rfl, Footnotes.current_know r.footnotes label,
      fun hr => ⟨hr.notes.refer label, hr.titles⟩⟩
  exact (Moves.of_silent hrefer s).trans (Moves.writeInline _ (balanced_referenceHtml _) s)

theorem moves_step {e : Event} (hstart : ∀ tag, e ≠ .start tag) (hstop : ∀ tag, e ≠ .stop tag)
    (hmarkers : e.OnlyMarkers) (r : Renderer) (line : Option Nat) (s : List Text) :
    Moves r (r.step e line) s s := by
  cases e with
  | start tag => exact absurd rfl (hstart tag)
  | stop tag => exact absurd rfl (hstop tag)
  | text text => exact moves_text r text s
  | code code =>
    have hcode := Balanced.of_element (Html.tags?_code code) (by decide)
    exact (Moves.of_silent (Writes.noteText r code) s).trans (Moves.writeInline _ hcode s)
  | html html => exact moves_rawHtml hmarkers r s
  | inlineHtml html => exact moves_rawHtml hmarkers r s
  | inlineMath source =>
    have hmath := Balanced.of_element (Html.tags?_math source false) (by decide)
    exact (Moves.of_silent (Writes.noteText r source) s).trans (Moves.writeInline _ hmath s)
  | displayMath source =>
    have hmath := Balanced.of_element (Html.tags?_math source true) (by decide)
    exact (Moves.of_silent (Writes.noteText r source) s).trans (Moves.writeInline _ hmath s)
  | footnoteReference label => exact moves_footnoteReference r label s
  | softBreak =>
    have hbreak : Balanced "\n" := Balanced.of_isPlain (by decide)
    exact (Moves.of_silent (Writes.noteText r " ") s).trans (Moves.writeInline _ hbreak s)
  | hardBreak =>
    have htag : tags? Html.hardBreak = some [.start "br" [⟨"/", none⟩]] := by decide
    exact Moves.write (Balanced.of_void htag (by decide) s)
  | rule =>
    have htag : tags? Html.rule = some [.start "hr" [⟨"/", none⟩]] := by decide
    exact Moves.write (Balanced.of_void htag (by decide) s)
  | taskMarker checked =>
    cases checked with
    | true =>
      have htag : tags? (Html.taskMarker true) = some [.start "input"
          [⟨"type", some "checkbox"⟩, ⟨"checked", none⟩, ⟨"disabled", none⟩]] := by decide
      exact Moves.write (Balanced.of_void htag (by decide) s)
    | false =>
      have htag : tags? (Html.taskMarker false) = some [.start "input"
          [⟨"type", some "checkbox"⟩, ⟨"disabled", none⟩]] := by decide
      exact Moves.write (Balanced.of_void htag (by decide) s)

theorem table_text (r : Renderer) (text : Text) : (r.text text).table = r.table := by
  unfold Renderer.text
  split
  · rfl
  · split
    · rfl
    · rfl
    · exact table_writeInline _ _

theorem table_rawHtml (r : Renderer) (html : Text) : (r.rawHtml html).table = r.table := by
  unfold rawHtml
  split
  · exact table_writeInline r html
  · rfl

theorem table_step {e : Event} (hstart : ∀ tag, e ≠ .start tag) (hstop : ∀ tag, e ≠ .stop tag)
    (r : Renderer) (line : Option Nat) : (r.step e line).table = r.table := by
  cases e with
  | start tag => exact absurd rfl (hstart tag)
  | stop tag => exact absurd rfl (hstop tag)
  | text text => exact table_text r text
  | html html => exact table_rawHtml r html
  | inlineHtml html => exact table_rawHtml r html
  | code _ | inlineMath _ | displayMath _ | footnoteReference _ | softBreak =>
    exact table_writeInline _ _
  | hardBreak | rule | taskMarker _ => rfl

end leaves

/-! ## The state around an element -/

/-- What holds of the state where content of this kind begins: only inline content stands in a
heading. `inside` says whether a footnote is being defined. -/
structure Ready (c : Content) (inside : Bool) (r : Renderer) : Prop where
  heading : c ≠ .inlines → r.headings.openHtml = none
  saved : inside = false → r.saved = none
  current : inside = false → r.footnotes.current = none

/-- Rendering content of this kind may lead from one state to the other. -/
structure Fills (c : Content) (r r' : Renderer) : Prop where
  moves : ∀ s, Moves r r' s (c.unclosed ++ s)
  table : c = .inlines → r'.table = r.table

namespace Ready

variable {c : Content} {inside : Bool} {r r' : Renderer}

theorem fresh : Ready c inside {} := ⟨fun _ => rfl, fun _ => rfl, fun _ => rfl⟩

theorem of_moves {s s' : List Text} (h : Ready c inside r) (hmoves : Moves r r' s s') :
    Ready c inside r' := by
  obtain ⟨out, head, hwrites, -, -⟩ := hmoves
  refine ⟨fun hc => ?_, fun hinside => ?_, fun hinside => ?_⟩
  · rw [hwrites.heading, h.heading hc]
    rfl
  · exact hwrites.saved.trans (h.saved hinside)
  · exact hwrites.current.trans (h.current hinside)

theorem startTag {tag : Tag} (h : Ready c inside r) (hholds : c.holds tag = true)
    (line : Option Nat) : Ready tag.content (inside || tag.isNote) (r.startTag tag line) := by
  have hinline : ∀ html, (r.writeInline html).saved = r.saved ∧
      (r.writeInline html).footnotes = r.footnotes := by
    intro html
    unfold writeInline
    split <;> exact ⟨rfl, rfl⟩
  refine ⟨fun hcontent => ?_, fun hinside => ?_, fun hinside => ?_⟩
  · have hnone : tag.isInline = false → r.headings.openHtml = none :=
      fun htag => h.heading (Content.ne_inlines hholds htag)
    cases tag with
    | blockQuote kind => cases kind <;> exact hnone rfl
    | codeBlock _ | list _ | item | footnoteDefinition _ | metadata | htmlBlock => exact hnone rfl
    | definitionList | definition | table _ | tableHead | tableRow => exact hnone rfl
    | _ => exact absurd rfl hcontent
  · obtain ⟨hout, hnote⟩ : inside = false ∧ tag.isNote = false := by simpa using hinside
    have hsaved := h.saved hout
    cases tag with
    | footnoteDefinition label => cases hnote
    | blockQuote kind => cases kind <;> exact hsaved
    | emphasis | strong | strikethrough | superscript | subscript | link _ _ =>
      exact (hinline _).1.trans hsaved
    | _ => exact hsaved
  · obtain ⟨hout, hnote⟩ : inside = false ∧ tag.isNote = false := by simpa using hinside
    have hcurrent := h.current hout
    cases tag with
    | footnoteDefinition label => cases hnote
    | blockQuote kind => cases kind <;> exact hcurrent
    | emphasis | strong | strikethrough | superscript | subscript | link _ _ =>
      exact (congrArg Footnotes.current (hinline _).2).trans hcurrent
    | _ => exact hcurrent

end Ready

/-! ## Elements -/

section elements

variable {c : Content} {r r₁ r₂ r₃ : Renderer}

theorem Fills.element {start stop name : Text} {as : List Html.Attribute} (h : Fills c r₁ r₂)
    (hc : c.unclosed = []) (hwrite : Writes r r₁ start []) (hwrite' : Writes r₂ r₃ stop [])
    (hstart : tags? start = some [.start name as]) (hstop : tags? stop = some [.stop name])
    (hname : Html.isElement name = true) (s : List Text) : Moves r r₃ s s := by
  have hinner := h.moves (name :: s)
  rw [hc, List.nil_append] at hinner
  have hbefore := Moves.of_output hwrite (Walk.start hstart hname s)
  have hafter := Moves.of_output hwrite' (Walk.stop hstop s)
  exact (hbefore.trans hinner).trans hafter

theorem moves_list {start : Option Nat} {line : Option Nat}
    (h : Fills .items (r.startTag (.list start) line) r₂) (s : List Text) :
    Moves r (r₂.endTag (.list start.isSome)) s s := by
  have hstart := tags?_listStart start line
  have hname : Html.isElement (listName start) = true := by
    unfold listName
    split <;> decide
  have hstop : tags? (if start.isSome then "</ol>\n" else "</ul>\n") =
      some [.stop (listName start)] := by
    unfold listName
    split <;> decide
  exact h.element rfl (Writes.write r _) (Writes.write r₂ _) hstart hstop hname s

theorem moves_tableCell {line : Option Nat} (h : Fills .inlines (r.startTag .tableCell line) r₂)
    (s : List Text) : Moves r (r₂.endTag .tableCell) s s := by
  have hstart := tags?_cellStart r.table
  have htable : r₂.table = r.table := h.table rfl
  have hname : Html.isElement (cellName r.table.inHead) = true := by
    cases r.table.inHead <;> decide
  have hstop : tags? (if r₂.table.inHead then "</th>\n" else "</td>\n") =
      some [.stop (cellName r.table.inHead)] := by
    rw [htable]
    cases r.table.inHead <;> decide
  have hwrite : Writes r₂ (r₂.endTag .tableCell)
      (if r₂.table.inHead then "</th>\n" else "</td>\n") [] :=
    Writes.of_output rfl rfl rfl rfl rfl rfl
  exact h.element rfl (Writes.write r _) hwrite hstart hstop hname s

theorem moves_tableHead {line : Option Nat} (h : Fills .cells (r.startTag .tableHead line) r₂)
    (s : List Text) : Moves r (r₂.endTag .tableHead) s ("tbody" :: s) := by
  have hthead : tags? "<thead>\n" = some [.start "thead" []] := by decide
  have htr : tags? "<tr>\n" = some [.start "tr" []] := by decide
  have htr' : tags? "</tr>\n" = some [.stop "tr"] := by decide
  have hthead' : tags? "</thead>\n" = some [.stop "thead"] := by decide
  have htbody : tags? "<tbody>\n" = some [.start "tbody" []] := by decide
  have hbefore := (Walk.start hthead (by decide) s).append (Walk.start htr (by decide) _)
  have hafter := ((Walk.stop htr' ("thead" :: s)).append (Walk.stop hthead' s)).append
    (Walk.start htbody (by decide) s)
  have hstart : Moves r (r.startTag .tableHead line) s ("tr" :: "thead" :: s) := by
    refine Moves.of_output ?_ hbefore
    exact Writes.of_output rfl rfl rfl rfl rfl rfl
  have hstop : Moves r₂ (r₂.endTag .tableHead) ("tr" :: "thead" :: s) ("tbody" :: s) := by
    refine Moves.of_output ?_ hafter
    exact Writes.of_output rfl rfl rfl rfl rfl rfl
  exact (hstart.trans (h.moves _)).trans hstop

theorem moves_table {alignments : List Markdown.ColumnAlignment} {line : Option Nat}
    (h : Fills .table (r.startTag (.table alignments) line) r₂) (s : List Text) :
    Moves r (r₂.endTag .table) s s := by
  have htable := Html.tags?_lineTag "table" "\n" (by decide) (by decide) line
  have htbody' : tags? "</tbody>\n" = some [.stop "tbody"] := by decide
  have htable' : tags? "</table>\n" = some [.stop "table"] := by decide
  have hafter := (Walk.stop htbody' ("table" :: s)).append (Walk.stop htable' s)
  have hstart : Moves r (r.startTag (.table alignments) line) s ("table" :: s) := by
    refine Moves.of_output ?_ (Walk.start htable (by decide) s)
    exact Writes.of_output rfl rfl rfl rfl rfl rfl
  exact (hstart.trans (h.moves _)).trans (Moves.write hafter)

theorem balanced_headingHtml {heading : Heading} (hlevel : 1 ≤ heading.level ∧ heading.level ≤ 6)
    (h : Balanced heading.html) : Balanced (headingHtml heading) := by
  intro s
  have hname : Html.isElement (headingName heading.level) = true := by
    have hcases : heading.level = 1 ∨ heading.level = 2 ∨ heading.level = 3 ∨
        heading.level = 4 ∨ heading.level = 5 ∨ heading.level = 6 := by omega
    rcases hcases with hn | hn | hn | hn | hn | hn <;> rw [hn] <;> decide
  have hstart := Walk.start (tags?_headingStart heading) hname s
  have hstop := Walk.stop (tags?_headingEnd heading.level) s
  rw [headingHtml_eq]
  exact (hstart.append (h.trim _)).append hstop

theorem moves_heading {level : Nat} {id : Option Text} {line : Option Nat}
    (hlevel : 1 ≤ level ∧ level ≤ 6) (hclosed : r.headings.openHtml = none)
    (h : Fills .inlines (r.startTag (.heading level id) line) r₂) (s : List Text) :
    Moves r (r₂.endTag (.heading level)) s s := by
  obtain ⟨out, head, hwrites, hwalk, hhead⟩ := h.moves s
  have hheading : r₂.headings.openHtml = some (level, head) := hwrites.heading
  obtain ⟨opened, hopened, heq⟩ := Option.map_eq_some_iff.1 hheading
  obtain ⟨hopenLevel, hopenHtml⟩ := Prod.mk.inj heq
  have hcomplete : ∃ heading headings, r₂.headings.complete = some (heading, headings) ∧
      heading.level = level ∧ heading.html = head ∧ headings.openHtml = none := by
    unfold Headings.complete
    rw [hopened]
    exact ⟨_, _, rfl, hopenLevel, hopenHtml, rfl⟩
  obtain ⟨heading, headings, hcomplete, rfl, rfl, hnone⟩ := hcomplete
  have hend : r₂.endTag (.heading heading.level) =
      { r₂.write (headingHtml heading) with headings } := by
    show r₂.endHeading = _
    unfold endHeading
    rw [hcomplete]
  rw [hend]
  refine ⟨out ++ headingHtml heading, [], ?_, hwalk.append (balanced_headingHtml hlevel hhead s),
    Balanced.nil⟩
  refine ⟨?_, ?_, hwrites.saved, hwrites.quotes, hwrites.current, fun hr => ?_⟩
  · show r₂.output ++ headingHtml heading = _
    rw [hwrites.output, List.append_assoc]
    rfl
  · rw [hclosed]
    exact hnone
  · obtain ⟨hnotes, htitles⟩ := hwrites.sound ⟨hr.notes, hr.titles⟩
    exact ⟨hnotes, htitles⟩

theorem moves_blockQuote {kind : Option Markdown.AlertKind} {line : Option Nat}
    (h : Fills .blocks (r.startTag (.blockQuote kind) line) r₂) (s : List Text) :
    Moves r (r₂.endTag (.blockQuote kind)) s s := by
  -- the written start and end of this kind, with a walk through both
  have hends : ∃ start stop name, r.startTag (.blockQuote kind) line =
        { r.write start with quotes := kind :: r.quotes } ∧
      (∀ r' : Renderer, r'.quotes = kind :: r.quotes →
        r'.endTag (.blockQuote kind) = { r'.write stop with quotes := r.quotes }) ∧
      Walk start s (name :: s) ∧ Walk stop (name :: s) s := by
    cases kind with
    | none =>
      have hstart := Html.tags?_blockQuoteStart line
      have hstop : tags? Html.blockQuoteEnd = some [.stop "blockquote"] := by decide
      refine ⟨_, Html.blockQuoteEnd, "blockquote", rfl, fun r' hquotes => ?_,
        Walk.start hstart (by decide) s, Walk.stop hstop s⟩
      show r'.endQuote = _
      unfold endQuote
      rw [hquotes]
    | some kind =>
      have hstart := Html.tags?_alertStart kind line
      have hstop : tags? Html.alertEnd = some [.stop "div"] := by decide
      refine ⟨_, Html.alertEnd, "div", rfl, fun r' hquotes => ?_, Walk.of_tags hstart ?_,
        Walk.stop hstop s⟩
      · show r'.endQuote = _
        unfold endQuote
        rw [hquotes]
      · rw [Html.openAfter?_start (by decide), Html.openAfter?_start (by decide)]
        exact Html.openAfter?_stop "p" [] _
  obtain ⟨start, stop, name, hstart, hstop, hwalk, hwalk'⟩ := hends
  obtain ⟨out, head, hwrites, hinner, hhead⟩ := h.moves (name :: s)
  rw [hstart] at hwrites
  rw [hstop r₂ hwrites.quotes]
  refine ⟨start ++ out ++ stop, head, ?_, (hwalk.append hinner).append hwalk', hhead⟩
  refine ⟨?_, hwrites.heading, hwrites.saved, rfl, hwrites.current, fun hr => ?_⟩
  · show r₂.output ++ stop = _
    rw [hwrites.output]
    show r.output ++ start ++ out ++ stop = _
    rw [List.append_assoc r.output, List.append_assoc r.output]
  · obtain ⟨hnotes, htitles⟩ := hwrites.sound ⟨hr.notes, hr.titles⟩
    exact ⟨hnotes, htitles⟩

theorem balanced_codeBlock (language : Option Text) (content : Text) (line : Option Nat) :
    Balanced (Html.codeBlock language content (lineAttr line)) := by
  intro s
  refine Walk.of_tags (Html.tags?_codeBlock language content line) ?_
  rw [Html.openAfter?_start (by decide), Html.openAfter?_start (by decide), Html.openAfter?_stop]
  exact Html.openAfter?_stop "pre" [] s

theorem moves_codeBlock {info : Option Text} {line : Option Nat}
    (h : Fills .literal (r.startTag (.codeBlock info) line) r₂) (s : List Text) :
    Moves r (r₂.endTag .codeBlock) s s := by
  have hstart : Moves r (r.startTag (.codeBlock info) line) s s := by
    refine Moves.of_silent ?_ s
    exact Writes.of_silent rfl rfl rfl rfl rfl rfl
  have hcode := balanced_codeBlock (r₂.code.getD {}).language (r₂.code.getD {}).content
    (r₂.code.getD {}).line
  have hstop : Moves r₂ (r₂.endTag .codeBlock) s s := by
    refine Moves.of_output ?_ (hcode s)
    exact Writes.of_output rfl rfl rfl rfl rfl rfl
  exact (hstart.trans (h.moves s)).trans hstop

theorem moves_metadata {line : Option Nat} (h : Fills .literal (r.startTag .metadata line) r₂)
    (s : List Text) : Moves r (r₂.endTag .metadata) s s := by
  have hstart : Moves r (r.startTag .metadata line) s s := by
    refine Moves.of_silent ?_ s
    exact Writes.of_silent rfl rfl rfl rfl rfl rfl
  have hstop : Moves r₂ (r₂.endTag .metadata) s s := by
    refine Moves.of_silent ?_ s
    exact Writes.of_silent rfl rfl rfl rfl rfl rfl
  exact (hstart.trans (h.moves s)).trans hstop

theorem moves_footnoteDefinition {label : Text} {line : Option Nat} {inside : Bool}
    (hready : Ready c inside r) (hc : c ≠ .inlines) (hinside : inside = false)
    (h : Fills .blocks (r.startTag (.footnoteDefinition label) line) r₂) (s : List Text) :
    Moves r (r₂.endTag .footnoteDefinition) s s := by
  have hbody : Balanced r₂.output := by
    intro t
    obtain ⟨out, head, hwrites, hwalk, -⟩ := h.moves t
    have hout : r₂.output = out := hwrites.output
    rwa [hout]
  obtain ⟨out, head, hwrites, -, hhead⟩ := h.moves s
  have hsaved : r₂.saved = some r.output := hwrites.saved
  have hcurrent : r₂.footnotes.current = some label := hwrites.current
  have hnone : r₂.headings.openHtml = none := by
    rw [hwrites.heading]
    exact congrArg (Option.map _) (hready.heading hc)
  have hend : r₂.endTag .footnoteDefinition = { r₂ with
      output := r.output, saved := none, footnotes := r₂.footnotes.endDefinition r₂.output } := by
    show r₂.endFootnote = _
    unfold endFootnote
    rw [hcurrent, hsaved]
    rfl
  rw [hend]
  refine Moves.of_silent ?_ s
  refine ⟨(List.append_nil _).symm, ?_, (hready.saved hinside).symm, hwrites.quotes, ?_,
    fun hr => ?_⟩
  · rw [hready.heading hc]
    exact hnone
  · rw [hready.current hinside]
    exact Footnotes.current_endDefinition r₂.footnotes r₂.output
  · obtain ⟨hnotes, htitles⟩ := hwrites.sound ⟨hr.notes.know label, hr.titles⟩
    exact ⟨hnotes.endDefinition hbody, htitles⟩

theorem balanced_image (src alt title : Text) : Balanced (Html.image src alt title) :=
  Balanced.of_void (Html.tags?_image src alt title) (by decide)

theorem moves_image {url title : Text} {line : Option Nat}
    (h : Fills .inlines (r.startTag (.image url title) line) r₂) (s : List Text) :
    Moves r (r₂.endTag .image) s s := by
  have hstart : Moves r (r.startTag (.image url title) line) s s := by
    refine Moves.of_silent ?_ s
    exact Writes.of_silent rfl rfl rfl rfl rfl rfl
  have hstop : Moves r₂ (r₂.endTag .image) s s := by
    show Moves r₂ r₂.endImage s s
    unfold endImage
    split
    · exact Moves.refl r₂ s
    · next image _ =>
      refine (Moves.writeInline r₂ (balanced_image image.url image.alt image.title) s).trans ?_
      refine Moves.of_silent ?_ s
      exact Writes.of_silent rfl rfl rfl rfl rfl rfl
  exact (hstart.trans (h.moves s)).trans hstop

theorem table_element {tag : Tag} {line : Option Nat} (htag : tag.isInline = true)
    (h : r₂.table = (r.startTag tag line).table) : (r₂.endTag tag.toEnd).table = r.table := by
  cases tag with
  | emphasis | strong | strikethrough | superscript | subscript | link _ _ =>
    exact (table_writeInline _ _).trans (h.trans (table_writeInline _ _))
  | image _ _ =>
    show r₂.endImage.table = r.table
    unfold endImage
    split
    · exact h
    · exact (table_writeInline _ _).trans h
  | _ => cases htag

/-- What an element writes leads to the open elements that it leaves behind. -/
theorem moves_element {tag : Tag} {line : Option Nat} {inside : Bool} (hready : Ready c inside r)
    (hholds : c.holds tag = true) (hnotes : (inside && tag.isNote) = false)
    (h : Fills tag.content (r.startTag tag line) r₂) (s : List Text) :
    Moves r (r₂.endTag tag.toEnd) s (tag.unclosed ++ s) := by
  cases tag with
  | paragraph =>
    have hstart := Html.tags?_lineTag "p" [] (by decide) rfl line
    have hstop : tags? "</p>\n" = some [.stop "p"] := by decide
    exact h.element rfl (Writes.write r _) (Writes.write r₂ _) hstart hstop (by decide) s
  | heading level id =>
    have hlevel := Content.level_of_holds hholds
    exact moves_heading hlevel (hready.heading (Content.ne_inlines hholds rfl)) h s
  | blockQuote kind => exact moves_blockQuote h s
  | codeBlock info => exact moves_codeBlock h s
  | list start => exact moves_list h s
  | item =>
    have hstart := Html.tags?_lineTag "li" [] (by decide) rfl line
    have hstop : tags? "</li>\n" = some [.stop "li"] := by decide
    exact h.element rfl (Writes.write r _) (Writes.write r₂ _) hstart hstop (by decide) s
  | footnoteDefinition label =>
    have hinside : inside = false := by simpa [Tag.isNote] using hnotes
    exact moves_footnoteDefinition hready (Content.ne_inlines hholds rfl) hinside h s
  | metadata => exact moves_metadata h s
  | htmlBlock => exact h.moves s
  | definitionList =>
    have hstart := Html.tags?_lineTag "dl" "\n" (by decide) (by decide) line
    have hstop : tags? "</dl>\n" = some [.stop "dl"] := by decide
    exact h.element rfl (Writes.write r _) (Writes.write r₂ _) hstart hstop (by decide) s
  | definitionTitle =>
    have hstart : tags? "<dt>" = some [.start "dt" []] := by decide
    have hstop : tags? "</dt>\n" = some [.stop "dt"] := by decide
    exact h.element rfl (Writes.write r _) (Writes.write r₂ _) hstart hstop (by decide) s
  | definition =>
    have hstart : tags? "<dd>" = some [.start "dd" []] := by decide
    have hstop : tags? "</dd>\n" = some [.stop "dd"] := by decide
    exact h.element rfl (Writes.write r _) (Writes.write r₂ _) hstart hstop (by decide) s
  | table alignments => exact moves_table h s
  | tableHead => exact moves_tableHead h s
  | tableRow =>
    have hstart : tags? "<tr>\n" = some [.start "tr" []] := by decide
    have hstop : tags? "</tr>\n" = some [.stop "tr"] := by decide
    have hwrite : Writes r (r.startTag .tableRow line) "<tr>\n" [] :=
      Writes.of_output rfl rfl rfl rfl rfl rfl
    exact h.element rfl hwrite (Writes.write r₂ _) hstart hstop (by decide) s
  | tableCell => exact moves_tableCell h s
  | emphasis =>
    have hstart : tags? "<em>" = some [.start "em" []] := by decide
    have hstop : tags? "</em>" = some [.stop "em"] := by decide
    exact Moves.inlineElement hstart hstop (by decide) h.moves s
  | strong =>
    have hstart : tags? "<strong>" = some [.start "strong" []] := by decide
    have hstop : tags? "</strong>" = some [.stop "strong"] := by decide
    exact Moves.inlineElement hstart hstop (by decide) h.moves s
  | strikethrough =>
    have hstart : tags? "<del>" = some [.start "del" []] := by decide
    have hstop : tags? "</del>" = some [.stop "del"] := by decide
    exact Moves.inlineElement hstart hstop (by decide) h.moves s
  | superscript =>
    have hstart : tags? "<sup>" = some [.start "sup" []] := by decide
    have hstop : tags? "</sup>" = some [.stop "sup"] := by decide
    exact Moves.inlineElement hstart hstop (by decide) h.moves s
  | subscript =>
    have hstart : tags? "<sub>" = some [.start "sub" []] := by decide
    have hstop : tags? "</sub>" = some [.stop "sub"] := by decide
    exact Moves.inlineElement hstart hstop (by decide) h.moves s
  | link url title =>
    have hstart := tags?_linkStart url title
    have hstop : tags? "</a>" = some [.stop "a"] := by decide
    exact Moves.inlineElement hstart hstop (by decide) h.moves s
  | image url title => exact moves_image h s

end elements

/-! ## Forests -/

theorem ne_of_admits {c : Content} {e : Event} (h : c.admits e = true) :
    (∀ tag, e ≠ .start tag) ∧ ∀ tag, e ≠ .stop tag := by
  constructor <;> rintro tag rfl <;> cases c <;> cases h

/-- The events of a forest, with their lines. -/
def lined (lineOf? : Option (Nat → Nat)) (f : Forest) : List (Event × Option Nat) :=
  f.located.map fun e => (e.event, lineOf?.map (· e.offset))

theorem steps_lined_element (r : Renderer) (lineOf? : Option (Nat → Nat)) (tag : Tag)
    (start stop : Nat) (inner rest : Forest) :
    r.steps (lined lineOf? (.element tag start stop inner rest)) =
      (((r.startTag tag (lineOf?.map (· start))).steps (lined lineOf? inner)).endTag tag.toEnd).steps
        (lined lineOf? rest) := by
  simp [lined, Forest.located, steps, step]

theorem Ready.after_element {c : Content} {tag : Tag} {inside : Bool} {r r₂ : Renderer}
    {line : Option Nat} (hready : Ready c inside r) (hholds : c.holds tag = true)
    (hnotes : (inside && tag.isNote) = false) (h : Fills tag.content (r.startTag tag line) r₂) :
    Ready c.after inside (r₂.endTag tag.toEnd) := by
  have hafter : c.after ≠ .inlines ↔ c ≠ .inlines := by cases c <;> simp [Content.after]
  have hready' := hready.of_moves (moves_element hready hholds hnotes h [])
  exact ⟨fun hc => hready'.heading (hafter.1 hc), hready'.saved, hready'.current⟩

/-- Rendering a forest leads to the open elements that its content leaves behind. -/
theorem fills_forest {c : Content} {inside : Bool} {r : Renderer} (lineOf? : Option (Nat → Nat))
    {f : Forest} (hfits : f.fits c = true) (hnotes : f.notesApart inside = true)
    (hmarkers : ∀ e ∈ f.events, e.OnlyMarkers) (hready : Ready c inside r) :
    Fills c r (r.steps (lined lineOf? f)) := by
  induction f generalizing c inside r with
  | nil =>
    have hunclosed : c.unclosed = [] := by
      cases c with
      | table => cases hfits
      | _ => rfl
    refine ⟨fun s => ?_, fun _ => rfl⟩
    rw [hunclosed]
    exact Moves.refl r s
  | leaf e offset rest ih =>
    obtain ⟨hadmits, hrest⟩ := Forest.fits_leaf_iff.1 hfits
    obtain ⟨hstart, hstop⟩ := ne_of_admits hadmits
    obtain ⟨hmarker, hmarkersRest⟩ := Forest.forall_mem_events_leaf_iff.1 hmarkers
    have hmoves := moves_step hstart hstop hmarker r (lineOf?.map (· offset))
    have hfills := ih hrest hnotes hmarkersRest (hready.of_moves (hmoves []))
    exact ⟨fun s => (hmoves s).trans (hfills.moves s),
      fun hc => (hfills.table hc).trans (table_step hstart hstop r _)⟩
  | element tag start stop inner rest ihInner ihRest =>
    obtain ⟨hholds, hinner, hrest⟩ := Forest.fits_element_iff.1 hfits
    simp only [Forest.notesApart, Bool.and_eq_true, Bool.not_eq_true'] at hnotes
    obtain ⟨⟨hnote, hnotesInner⟩, hnotesRest⟩ := hnotes
    obtain ⟨-, hmarkersInner, -, hmarkersRest⟩ := Forest.forall_mem_events_element_iff.1 hmarkers
    have hfills := ihInner hinner hnotesInner hmarkersInner
      (hready.startTag hholds (lineOf?.map (· start)))
    have hmoves := moves_element hready hholds hnote hfills
    have hfills' := ihRest hrest hnotesRest hmarkersRest (hready.after_element hholds hnote hfills)
    rw [steps_lined_element]
    refine ⟨fun s => ?_, fun hc => ?_⟩
    · rw [Content.unclosed_eq hholds, List.append_assoc]
      exact (hmoves s).trans (hfills'.moves _)
    · subst hc
      exact (hfills'.table rfl).trans (table_element hholds (hfills.table (by
        cases tag <;> first | rfl | cases hholds)))

/-! ## Pages -/

theorem balanced_item {n : Nat} {note : Note} (h : ∀ body, note.body = some body → Balanced body) :
    Balanced (Footnotes.Note.item n note) := by
  unfold Footnotes.Note.item
  split
  · exact Balanced.nil
  · next body hbody =>
    intro s
    have hstart := Walk.start (Footnotes.tags?_itemStart n) (by decide) s
    have hstop : tags? "</li>\n" = some [.stop "li"] := by decide
    have hback : Balanced (if note.referenced then Footnotes.backReference n else []) := by
      split
      · exact Balanced.of_element (Footnotes.tags?_backReference n) (by decide)
      · exact Balanced.nil
    have hinner := hstart.append (h body hbody ("li" :: s))
    exact (hinner.append (hback _)).append (Walk.stop hstop s)

theorem balanced_items {notes : List Note} (n : Nat)
    (h : ∀ note ∈ notes, ∀ body, note.body = some body → Balanced body) :
    Balanced (Footnotes.items n notes) := by
  induction notes generalizing n with
  | nil => exact Balanced.nil
  | cons note notes ih =>
    rw [List.forall_mem_cons] at h
    exact (balanced_item h.1).append (ih (n + 1) h.2)

theorem balanced_section {html : Text} (h : Balanced html) :
    Balanced ("<div class=\"footnotes\">\n<hr class=\"footnotes-sep\" />\n<ol>\n" ++ html ++
      "</ol>\n</div>\n") := by
  intro s
  have hstart : Walk "<div class=\"footnotes\">\n<hr class=\"footnotes-sep\" />\n<ol>\n" s
      ("ol" :: "div" :: s) := by
    refine Walk.of_tags Footnotes.tags?_sectionStart ?_
    rw [Html.openAfter?_start (by decide), Html.openAfter?_void (by decide)]
    exact Html.openAfter?_start (by decide) [] [] _
  have hstop : Walk "</ol>\n</div>\n" ("ol" :: "div" :: s) s := by
    refine Walk.of_tags Footnotes.tags?_sectionEnd ?_
    rw [Html.openAfter?_stop]
    exact Html.openAfter?_stop "div" [] s
  exact (hstart.append (h _)).append hstop

theorem balanced_sectionHtml {fs : Footnotes} (h : fs.Sound) : Balanced fs.sectionHtml := by
  unfold Footnotes.sectionHtml
  split
  · exact Balanced.nil
  · exact balanced_section (balanced_items 1 h)

theorem walk_fillMarkers (toc : List Toc.Entry) (options : Toc.Options) {index : Nat}
    {markers : List Toc.Marker} {html : Text} {s s' : List Text} (h : Walk html s s')
    (htitles : ∀ marker ∈ markers, marker.title.all isPlain = true) :
    Walk (fillMarkers toc options index markers html) s s' := by
  induction markers generalizing index html with
  | nil => exact h
  | cons marker markers ih =>
    rw [List.forall_mem_cons] at htitles
    rw [fillMarkers, placeholder_eq]
    exact ih (h.replace (isPlain_placeholder index)
      (Toc.balanced_render toc options htitles.1)) htitles.2

/-- Behind a well-nested document no element of the page is open. -/
theorem walk_output (lineOf? : Option (Nat → Nat)) {f : Forest} (hfits : f.fits .blocks = true)
    (hnotes : f.notesApart false = true) (hmarkers : ∀ e ∈ f.events, e.OnlyMarkers) :
    Walk (({} : Renderer).steps (lined lineOf? f)).output [] [] ∧
      (({} : Renderer).steps (lined lineOf? f)).Sound := by
  have hfills := fills_forest lineOf? hfits hnotes hmarkers Ready.fresh
  obtain ⟨out, head, hwrites, hwalk, -⟩ := hfills.moves []
  have hempty : ({} : Renderer).Sound :=
    ⟨fun _ hnote => absurd hnote List.not_mem_nil, fun _ hmarker => absurd hmarker List.not_mem_nil⟩
  refine ⟨?_, hwrites.sound hempty⟩
  rw [hwrites.output]
  exact hwalk

/-- The page of a well-nested document is nested, if no footnote is defined inside another and raw
HTML only stands for markers. -/
theorem isNested_renderLocated (options : Toc.Options) (lineOf? : Option (Nat → Nat)) {f : Forest}
    (hfits : f.fits .blocks = true) (hnotes : f.notesApart false = true)
    (hmarkers : ∀ e ∈ f.events, e.OnlyMarkers) :
    Html.isNested (({} : Renderer).renderLocated options lineOf? f.located).1.html = true := by
  obtain ⟨houtput, hsound⟩ := walk_output lineOf? hfits hnotes hmarkers
  have hpage := houtput.append (balanced_sectionHtml hsound.notes [])
  exact Html.isNested_of_walk (walk_fillMarkers _ options hpage hsound.titles)

/-- A table of contents, a heading with a footnote, a list of a task, a table in an alert, and the
definition of the footnote. -/
def sampleForest : Forest :=
  .element .htmlBlock 0 17 (.leaf (.html "<!-- mdv-toc -->\n") 0 .nil) <|
  .element (.heading 2 none) 18 30
    (.leaf (.text "a < b") 21 <| .leaf .hardBreak 26 <| .leaf (.footnoteReference "n") 27 .nil) <|
  .element (.list none) 31 50
    (.element .item 31 50 (.leaf (.taskMarker true) 33 <| .leaf (.text "done") 37 .nil) .nil) <|
  .element (.blockQuote (some .tip)) 51 90
    (.element (.table [.left, .none]) 60 89
      (.element .tableHead 60 70 (.element .tableCell 61 65 (.leaf (.code "x") 62 .nil) .nil) <|
        .element .tableRow 71 80 (.element .tableCell 72 75 .nil .nil) .nil) .nil) <|
  .element (.footnoteDefinition "n") 91 120
    (.element .paragraph 96 120
      (.element (.link "u" "t") 96 110 (.leaf (.text "there") 97 .nil) .nil) .nil) .nil

theorem isNested_sampleForest :
    sampleForest.fits .blocks = true ∧ sampleForest.notesApart false = true ∧
      (∀ e ∈ sampleForest.events, e.OnlyMarkers) ∧
      Html.isNested (({} : Renderer).renderLocated {} (some (· / 10 + 1))
        sampleForest.located).1.html = true := by
  have hfits : sampleForest.fits .blocks = true := by decide
  have hnotes : sampleForest.notesApart false = true := by decide
  have hmarkers : ∀ e ∈ sampleForest.events, e.OnlyMarkers := by
    have hcomment : Toc.Marker.IsComment "<!-- mdv-toc -->\n" :=
      ⟨⟨none⟩, [], "\n", rfl, by decide, by decide⟩
    simpa [sampleForest, Event.OnlyMarkers] using hcomment
  exact ⟨hfits, hnotes, hmarkers, isNested_renderLocated {} (some (· / 10 + 1)) hfits hnotes hmarkers⟩

end Galley.Render.Renderer
