import Galley.Proofs.Render.Emission

/-!
# The tags of an event

Which tags each event writes (`tags?_emitted`), raw HTML and the marks of headings apart. What
holds of the tags of a page is read off this list, event by event. Most attributes in it have to do
with neither links nor footnotes; what holds of all such attributes is said once (`Ordinary`).
-/

namespace Galley.Render.Renderer

open Html (Attribute Tagged lineAttributes tags?)
open Markdown (Event Tag TagEnd)

/-! ## The list -/

abbrev ruleTag : Html.Tag := .start "hr" [⟨"/", none⟩]

def startTags (r : Renderer) (line : Option Nat) : Tag → List Html.Tag
  | .paragraph => [.start "p" (lineAttributes line)]
  | .blockQuote none => [.start "blockquote" (lineAttributes line)]
  | .blockQuote (some kind) =>
    [.start "div" (Html.alertAttribute kind :: lineAttributes line),
      .start "p" [⟨"class", some "alert-title"⟩], .stop "p"]
  | .list start => [.start (listName start) (startAttributes start ++ lineAttributes line)]
  | .item => [.start "li" (lineAttributes line)]
  | .definitionList => [.start "dl" (lineAttributes line)]
  | .definitionTitle => [.start "dt" []]
  | .definition => [.start "dd" []]
  | .table _ => [.start "table" (lineAttributes line)]
  | .tableHead => [.start "thead" [], .start "tr" []]
  | .tableRow => [.start "tr" []]
  | .tableCell => [.start (cellName r.table.inHead) r.table.styleAttributes]
  | .emphasis => [.start "em" []]
  | .strong => [.start "strong" []]
  | .strikethrough => [.start "del" []]
  | .superscript => [.start "sup" []]
  | .subscript => [.start "sub" []]
  | .link url title => [.start "a" (.escaped "href" url :: Html.titleAttributes title)]
  | .heading _ _ | .codeBlock _ | .footnoteDefinition _ | .metadata | .htmlBlock | .image _ _ => []

def codeTags (code : OpenCode) : List Html.Tag :=
  [.start "pre" (lineAttributes code.line), .start "code" (Html.languageAttributes code.language),
    .stop "code", .stop "pre"]

def imageTag (image : OpenImage) : Html.Tag :=
  .start "img" (.escaped "src" image.url :: Html.titleAttributes image.title
    ++ [.escaped "alt" image.alt, ⟨"/", none⟩])

def stopTags (r : Renderer) : TagEnd → List Html.Tag
  | .paragraph => [.stop "p"]
  | .blockQuote _ =>
    match r.quotes with
    | some _ :: _ => [.stop "div"]
    | none :: _ | [] => [.stop "blockquote"]
  | .codeBlock => codeTags (r.code.getD {})
  | .list ordered => [.stop (if ordered then "ol" else "ul")]
  | .item => [.stop "li"]
  | .definitionList => [.stop "dl"]
  | .definitionTitle => [.stop "dt"]
  | .definition => [.stop "dd"]
  | .table => [.stop "tbody", .stop "table"]
  | .tableHead => [.stop "tr", .stop "thead", .start "tbody" []]
  | .tableRow => [.stop "tr"]
  | .tableCell => [.stop (cellName r.table.inHead)]
  | .emphasis => [.stop "em"]
  | .strong => [.stop "strong"]
  | .strikethrough => [.stop "del"]
  | .superscript => [.stop "sup"]
  | .subscript => [.stop "sub"]
  | .link => [.stop "a"]
  | .image => r.image.toList.map imageTag
  | .heading _ | .footnoteDefinition | .metadata | .htmlBlock => []

def mathTags (display : Bool) : List Html.Tag :=
  [.start (Html.mathElement display).1 [⟨"class", some (Html.mathElement display).2⟩],
    .stop (Html.mathElement display).1]

def tagsOf (r : Renderer) (line : Option Nat) : Event → List Html.Tag
  | .start tag => r.startTags line tag
  | .stop tag => r.stopTags tag
  | .code _ => [.start "code" [], .stop "code"]
  | .inlineMath _ => mathTags false
  | .displayMath _ => mathTags true
  | .footnoteReference label => Footnotes.referenceTags ((r.footnotes.refer label).number label)
  | .hardBreak => [.start "br" [⟨"/", none⟩]]
  | .rule => [ruleTag]
  | .taskMarker true =>
    [.start "input" [⟨"type", some "checkbox"⟩, ⟨"checked", none⟩, ⟨"disabled", none⟩]]
  | .taskMarker false => [.start "input" [⟨"type", some "checkbox"⟩, ⟨"disabled", none⟩]]
  | .text _ | .softBreak | .html _ | .inlineHtml _ => []

/-! ## Attributes -/

/-- The keys of the attributes that events write, classes and the addresses of links apart. -/
def ordinaryKeys : List Text :=
  ["line", "title", "start", "style", "src", "alt", "type", "checked", "disabled", "/"]

def noteClasses : List Text := ["footnote-ref", "footnote-backref"]

/-- The property holds of attributes that have to do with neither links nor footnotes. -/
structure Ordinary (P : Attribute → Prop) : Prop where
  keyed : ∀ key ∈ ordinaryKeys, ∀ value, P ⟨key, value⟩
  classed : ∀ value, value ∉ noteClasses → P ⟨"class", some value⟩

namespace Ordinary

variable {P : Attribute → Prop}

theorem line (h : Ordinary P) (line : Option Nat) : ∀ a ∈ lineAttributes line, P a := by
  cases line with
  | none => exact fun _ ha => absurd ha List.not_mem_nil
  | some n => exact List.forall_mem_singleton.2 (h.keyed _ (by decide) _)

theorem title (h : Ordinary P) (title : Text) : ∀ a ∈ Html.titleAttributes title, P a := by
  unfold Html.titleAttributes
  split
  · exact fun _ ha => absurd ha List.not_mem_nil
  · exact List.forall_mem_singleton.2 (h.keyed _ (by decide) _)

theorem language (h : Ordinary P) (language : Option Text) :
    ∀ a ∈ Html.languageAttributes language, P a := by
  cases language with
  | none => exact fun _ ha => absurd ha List.not_mem_nil
  | some lang => exact List.forall_mem_singleton.2 (h.classed _ (by simp [noteClasses]))

theorem start (h : Ordinary P) (start : Option Nat) : ∀ a ∈ startAttributes start, P a := by
  unfold startAttributes
  split
  · exact fun _ ha => absurd ha List.not_mem_nil
  · exact fun _ ha => absurd ha List.not_mem_nil
  · exact List.forall_mem_singleton.2 (h.keyed _ (by decide) _)

theorem style (h : Ordinary P) (cursor : TableCursor) : ∀ a ∈ cursor.styleAttributes, P a := by
  unfold TableCursor.styleAttributes
  split
  · exact List.forall_mem_singleton.2 (h.keyed _ (by decide) _)
  · exact List.forall_mem_singleton.2 (h.keyed _ (by decide) _)
  · exact List.forall_mem_singleton.2 (h.keyed _ (by decide) _)
  · exact fun _ ha => absurd ha List.not_mem_nil
  · exact fun _ ha => absurd ha List.not_mem_nil

theorem math (h : Ordinary P) (display : Bool) : ∀ t ∈ mathTags display, ∀ a ∈ t.attributes, P a := by
  have hclass : P ⟨"class", some (Html.mathElement display).2⟩ := by
    cases display <;> exact h.classed _ (by decide)
  simpa [mathTags] using hclass

theorem startTags (h : Ordinary P) (r : Renderer) {tag : Tag}
    (hlink : ∀ url title, tag = .link url title → P (.escaped "href" url)) (line : Option Nat) :
    ∀ t ∈ r.startTags line tag, ∀ a ∈ t.attributes, P a := by
  have hline := h.line line
  cases tag with
  | paragraph | item | definitionList | table _ => exact List.forall_mem_singleton.2 hline
  | blockQuote kind =>
    cases kind with
    | none => exact List.forall_mem_singleton.2 hline
    | some kind =>
      have hkind : P (Html.alertAttribute kind) := by
        cases kind <;> exact h.classed _ (by decide)
      have htitle : P ⟨"class", some "alert-title"⟩ := h.classed _ (by decide)
      exact List.forall_mem_cons.2 ⟨List.forall_mem_cons.2 ⟨hkind, hline⟩,
        List.forall_mem_cons.2 ⟨List.forall_mem_singleton.2 htitle, by simp⟩⟩
  | list start =>
    exact List.forall_mem_singleton.2 (List.forall_mem_append.2 ⟨h.start start, hline⟩)
  | tableCell => exact List.forall_mem_singleton.2 (h.style r.table)
  | link url title =>
    exact List.forall_mem_singleton.2 (List.forall_mem_cons.2 ⟨hlink url title rfl, h.title title⟩)
  | _ => simp [Renderer.startTags]

theorem stopTags (h : Ordinary P) (r : Renderer) (tag : TagEnd) :
    ∀ t ∈ r.stopTags tag, ∀ a ∈ t.attributes, P a := by
  cases tag with
  | blockQuote _ =>
    simp only [Renderer.stopTags]
    split <;> simp
  | codeBlock =>
    rw [Renderer.stopTags, codeTags, List.forall_mem_cons, List.forall_mem_cons]
    exact ⟨h.line _, h.language _, by simp⟩
  | image =>
    simp only [Renderer.stopTags, List.forall_mem_map]
    intro image _
    have hsrc : P (.escaped "src" image.url) := h.keyed _ (by decide) _
    have halt : P (.escaped "alt" image.alt) := h.keyed _ (by decide) _
    have hslash : P ⟨"/", none⟩ := h.keyed _ (by decide) _
    rw [imageTag, List.forall_mem_append, List.forall_mem_cons, List.forall_mem_cons,
      List.forall_mem_singleton]
    exact ⟨⟨hsrc, h.title image.title⟩, halt, hslash⟩
  | _ => simp [Renderer.stopTags]

theorem tagsOf (h : Ordinary P) (r : Renderer) {e : Event}
    (hreference : ∀ label, e ≠ .footnoteReference label)
    (hlink : ∀ url title, e = .start (.link url title) → P (.escaped "href" url))
    (line : Option Nat) : ∀ t ∈ r.tagsOf line e, ∀ a ∈ t.attributes, P a := by
  cases e with
  | start tag => exact h.startTags r (fun url title heq => hlink url title (congrArg _ heq)) line
  | stop tag => exact h.stopTags r tag
  | inlineMath _ => exact h.math false
  | displayMath _ => exact h.math true
  | footnoteReference label => exact absurd rfl (hreference label)
  | hardBreak | rule =>
    have hslash : P ⟨"/", none⟩ := h.keyed _ (by decide) _
    exact List.forall_mem_singleton.2 (List.forall_mem_singleton.2 hslash)
  | taskMarker checked =>
    have htype : P ⟨"type", some "checkbox"⟩ := h.keyed _ (by decide) _
    have hchecked : P ⟨"checked", none⟩ := h.keyed _ (by decide) _
    have hdisabled : P ⟨"disabled", none⟩ := h.keyed _ (by decide) _
    cases checked with
    | false =>
      exact List.forall_mem_singleton.2
        (List.forall_mem_cons.2 ⟨htype, List.forall_mem_singleton.2 hdisabled⟩)
    | true =>
      exact List.forall_mem_singleton.2 (List.forall_mem_cons.2 ⟨htype,
        List.forall_mem_cons.2 ⟨hchecked, List.forall_mem_singleton.2 hdisabled⟩⟩)
  | _ => simp [Renderer.tagsOf]

end Ordinary

/-! ## The tags are read back -/

theorem tags?_emitted_start (r : Renderer) (tag : Tag) (line : Option Nat) :
    tags? (r.emitted (.start tag) line) = some (r.startTags line tag) := by
  cases tag with
  | paragraph => exact Html.tags?_lineTag "p" [] (by decide) rfl line
  | blockQuote kind =>
    cases kind with
    | none => exact Html.tags?_blockQuoteStart line
    | some kind => exact Html.tags?_alertStart kind line
  | list start => exact tags?_listStart start line
  | item => exact Html.tags?_lineTag "li" [] (by decide) rfl line
  | definitionList => exact Html.tags?_lineTag "dl" "\n" (by decide) (by decide) line
  | table _ => exact Html.tags?_lineTag "table" "\n" (by decide) (by decide) line
  | tableCell => exact tags?_cellStart r.table
  | link url title => exact tags?_linkStart url title
  | definitionTitle => exact (by decide : tags? "<dt>" = some [.start "dt" []])
  | definition => exact (by decide : tags? "<dd>" = some [.start "dd" []])
  | tableHead => exact (by decide : tags? "<thead>\n<tr>\n" = some [.start "thead" [], .start "tr" []])
  | tableRow => exact (by decide : tags? "<tr>\n" = some [.start "tr" []])
  | emphasis => exact (by decide : tags? "<em>" = some [.start "em" []])
  | strong => exact (by decide : tags? "<strong>" = some [.start "strong" []])
  | strikethrough => exact (by decide : tags? "<del>" = some [.start "del" []])
  | superscript => exact (by decide : tags? "<sup>" = some [.start "sup" []])
  | subscript => exact (by decide : tags? "<sub>" = some [.start "sub" []])
  | heading _ _ | codeBlock _ | footnoteDefinition _ | metadata | htmlBlock | image _ _ => rfl

theorem tags?_emitted_endQuote (r : Renderer) :
    tags? r.apart.endQuote.output = some (r.stopTags (.blockQuote none)) := by
  have halert : tags? Html.alertEnd = some [.stop "div"] := by decide
  have hquote : tags? Html.blockQuoteEnd = some [.stop "blockquote"] := by decide
  obtain ⟨output, code, table, image, headings, footnotes, saved, quotes, inMetadata, markers⟩ := r
  cases quotes with
  | nil => exact hquote
  | cons kind quotes =>
    cases kind with
    | none => exact hquote
    | some _ => exact halert

theorem tags?_emitted_endImage (r : Renderer) :
    tags? r.apart.endImage.output = some (r.image.toList.map imageTag) := by
  cases himage : r.image with
  | none =>
    have himage' : r.apart.image = none := himage
    rw [endImage_of_none himage']
    rfl
  | some image =>
    have himage' : r.apart.image = some image := himage
    rw [endImage_of_some himage']
    exact Html.tags?_image image.url image.alt image.title

theorem output_endFootnote_apart (r : Renderer) : r.apart.endFootnote.output = [] := by
  unfold endFootnote
  split <;> rfl

theorem tags?_emitted_stop (r : Renderer) {tag : TagEnd}
    (hheading : (Event.stop tag).isHeadingMark = false) (line : Option Nat) :
    tags? (r.emitted (.stop tag) line) = some (r.stopTags tag) := by
  cases tag with
  | heading _ => cases hheading
  | blockQuote _ => exact tags?_emitted_endQuote r
  | codeBlock => exact Html.tags?_codeBlock _ _ _
  | image => exact tags?_emitted_endImage r
  | footnoteDefinition => exact congrArg tags? (output_endFootnote_apart r)
  | list ordered =>
    cases ordered with
    | true => exact (by decide : tags? "</ol>\n" = some [.stop "ol"])
    | false => exact (by decide : tags? "</ul>\n" = some [.stop "ul"])
  | tableCell =>
    show tags? (if r.table.inHead then "</th>\n" else "</td>\n") = some [.stop (cellName r.table.inHead)]
    cases r.table.inHead <;> decide
  | paragraph => exact (by decide : tags? "</p>\n" = some [.stop "p"])
  | item => exact (by decide : tags? "</li>\n" = some [.stop "li"])
  | definitionList => exact (by decide : tags? "</dl>\n" = some [.stop "dl"])
  | definitionTitle => exact (by decide : tags? "</dt>\n" = some [.stop "dt"])
  | definition => exact (by decide : tags? "</dd>\n" = some [.stop "dd"])
  | table => exact (by decide : tags? "</tbody>\n</table>\n" = some [.stop "tbody", .stop "table"])
  | tableHead =>
    exact (by decide : tags? "</tr>\n</thead>\n<tbody>\n" =
      some [.stop "tr", .stop "thead", .start "tbody" []])
  | tableRow => exact (by decide : tags? "</tr>\n" = some [.stop "tr"])
  | emphasis => exact (by decide : tags? "</em>" = some [.stop "em"])
  | strong => exact (by decide : tags? "</strong>" = some [.stop "strong"])
  | strikethrough => exact (by decide : tags? "</del>" = some [.stop "del"])
  | superscript => exact (by decide : tags? "</sup>" = some [.stop "sup"])
  | subscript => exact (by decide : tags? "</sub>" = some [.stop "sub"])
  | link => exact (by decide : tags? "</a>" = some [.stop "a"])
  | metadata | htmlBlock => rfl

theorem tags?_emitted_text (r : Renderer) (text : Text) (line : Option Nat) :
    tags? (r.emitted (.text text) line) = some [] := by
  obtain ⟨output, code, table, image, headings, footnotes, saved, quotes, inMetadata, markers⟩ := r
  cases inMetadata with
  | true => rfl
  | false =>
    cases code with
    | some _ => rfl
    | none =>
      cases image with
      | some _ => rfl
      | none => exact Html.tags?_of_isPlain (Html.isPlain_escape text)

/-- The text of an event has the tags of the list. -/
theorem tags?_emitted (r : Renderer) {e : Event} (hraw : e.isRaw = false)
    (hheading : e.isHeadingMark = false) (line : Option Nat) :
    tags? (r.emitted e line) = some (r.tagsOf line e) := by
  cases e with
  | start tag => exact tags?_emitted_start r tag line
  | stop tag => exact tags?_emitted_stop r hheading line
  | text text => exact tags?_emitted_text r text line
  | code code => exact Html.tags?_code code
  | html _ | inlineHtml _ => cases hraw
  | inlineMath source => exact Html.tags?_math source false
  | displayMath source => exact Html.tags?_math source true
  | footnoteReference label => exact Footnotes.tags?_referenceHtml _
  | softBreak => exact (by decide : tags? "\n" = some [])
  | hardBreak => exact (by decide : tags? Html.hardBreak = some [.start "br" [⟨"/", none⟩]])
  | rule => exact (by decide : tags? Html.rule = some [ruleTag])
  | taskMarker checked =>
    cases checked with
    | true =>
      exact (by decide : tags? (Html.taskMarker true) = some [.start "input"
        [⟨"type", some "checkbox"⟩, ⟨"checked", none⟩, ⟨"disabled", none⟩]])
    | false =>
      exact (by decide : tags? (Html.taskMarker false) =
        some [.start "input" [⟨"type", some "checkbox"⟩, ⟨"disabled", none⟩]])

/-! ## Pieces -/

section tagged

variable {Q : Html.Tag → Prop}

theorem tagged_headingHtml {heading : Heading} (h : Tagged Q heading.html)
    (hstart : Q (.start (headingName heading.level) (headingAttributes heading)))
    (hstop : Q (.stop (headingName heading.level))) : Tagged Q (headingHtml heading) := by
  rw [headingHtml_eq]
  exact ((Tagged.singleton (tags?_headingStart heading) hstart).append h.trim).append
    (.singleton (tags?_headingEnd heading.level) hstop)

theorem tagged_flatMap {ps : List Piece} (h : ∀ p ∈ ps, Tagged Q p.html) :
    Tagged Q (ps.flatMap (·.html)) := by
  induction ps with
  | nil => exact Tagged.nil
  | cons p ps ih =>
    rw [List.forall_mem_cons] at h
    exact h.1.append (ih h.2)

theorem lasts_tagged
    (hstart : ∀ heading, Q (.start (headingName heading.level) (headingAttributes heading)))
    (hstop : ∀ level, Q (.stop (headingName level))) : Lasts (Tagged Q) where
  nil := Tagged.nil
  append := Tagged.append
  heading := fun h => tagged_headingHtml h (hstart _) (hstop _)

/-- Without raw HTML, what holds of the tags of headings and of the tags of each event holds of the
tags of every piece and of the open heading. -/
theorem tagged_pieces
    (hstart : ∀ heading, Q (.start (headingName heading.level) (headingAttributes heading)))
    (hstop : ∀ level, Q (.stop (headingName level))) {r : Renderer} (opened : List Text)
    {es : List (Event × Option Nat)} (hopen : OpenHas (Tagged Q) r)
    (hraw : ∀ e ∈ es, e.1.isRaw = false) (hes : ∀ es₁ e line es₂, es = es₁ ++ (e, line) :: es₂ →
      ∀ t ∈ (r.steps es₁).tagsOf line e, Q t) :
    (∀ p ∈ r.pieces opened es, Tagged Q p.html) ∧ OpenHas (Tagged Q) (r.steps es) := by
  refine (lasts_tagged hstart hstop).pieces opened hopen fun es₁ e line es₂ heq => ?_
  have hnotRaw : e.isRaw = false := hraw (e, line) (by simp [heq])
  exact ⟨hnotRaw, fun hheading _ => ⟨_, tags?_emitted _ hnotRaw hheading line, hes es₁ e line es₂ heq⟩⟩

end tagged

end Galley.Render.Renderer
