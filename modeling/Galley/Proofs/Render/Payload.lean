import Galley.Proofs.Html.Outline
import Galley.Proofs.Render.Element
import Mathlib.Data.List.Forall2

/-!
# Texts add no tags

Two documents whose events differ in texts only are rendered to pages with the same tags. The
events need not be nested. The argument compares two runs step by step: `Renderer.Alike` relates
their states, and a step of alike events keeps it (`Alike.step`).
-/

namespace Galley.Markdown

/-- The starts of the same element, perhaps with other texts. -/
inductive Tag.Alike : Tag → Tag → Prop
  | refl (tag : Tag) : Alike tag tag
  | heading (level : Nat) (id id' : Option Text) : Alike (.heading level id) (.heading level id')
  | codeBlock (info info' : Option Text) : Alike (.codeBlock info) (.codeBlock info')
  | link (url title url' title' : Text) : Alike (.link url title) (.link url' title')
  | image (url title url' title' : Text) : Alike (.image url title) (.image url' title')

/-- The same event, perhaps with other texts. -/
inductive Event.Alike : Event → Event → Prop
  | refl (e : Event) : Alike e e
  | start {tag tag' : Tag} (h : tag.Alike tag') : Alike (.start tag) (.start tag')
  | text (s s' : Text) : Alike (.text s) (.text s')
  | code (s s' : Text) : Alike (.code s) (.code s')
  | inlineMath (s s' : Text) : Alike (.inlineMath s) (.inlineMath s')
  | displayMath (s s' : Text) : Alike (.displayMath s) (.displayMath s')

def Event.isRaw : Event → Bool
  | .html _ | .inlineHtml _ => true
  | _ => false

end Galley.Markdown

namespace Galley.Render

open Html (lineAttr tags?)
open Markdown (Event Located Tag TagEnd)

section relations

variable {α β : Type} {R : α → α → Prop}

theorem eq_none_or_eq_some_of_rel {o o' : Option α} (h : Option.Rel R o o') :
    (o = none ∧ o' = none) ∨ ∃ a a', o = some a ∧ o' = some a' ∧ R a a' := by
  cases h with
  | none => exact .inl ⟨rfl, rfl⟩
  | some hab => exact .inr ⟨_, _, rfl, rfl, hab⟩

theorem isSome_eq_of_rel {o o' : Option α} (h : Option.Rel R o o') : o.isSome = o'.isSome := by
  cases h <;> rfl

theorem rel_map {f f' : α → α} {o o' : Option α} (h : Option.Rel R o o')
    (hf : ∀ a a', R a a' → R (f a) (f' a')) : Option.Rel R (o.map f) (o'.map f') := by
  cases h with
  | none => exact .none
  | some hab => exact .some (hf _ _ hab)

theorem map_eq_of_forall₂ {f : α → β} {as as' : List α} (h : List.Forall₂ R as as')
    (hf : ∀ a a', R a a' → f a = f a') : as.map f = as'.map f := by
  induction h with
  | nil => rfl
  | cons hab hrest ih => rw [List.map_cons, List.map_cons, hf _ _ hab, ih]

end relations

/-! ## Elements -/

namespace Renderer

theorem alike_listStart (start line line' : Option Nat) :
    Html.Alike (listStart start (lineAttr line)) (listStart start (lineAttr line')) := by
  refine ⟨_, _, tags?_listStart start line, tags?_listStart start line', ?_⟩
  simp only [List.map_cons, Html.Tag.outline, Html.Attribute.outline_append,
    Html.Attribute.outline_lineAttributes]

theorem alike_linkStart (url title url' title' : Text) :
    Html.Alike ("<a href=\"" ++ Html.escape url ++ "\"" ++ Html.titleAttr title ++ ">")
      ("<a href=\"" ++ Html.escape url' ++ "\"" ++ Html.titleAttr title' ++ ">") := by
  have houtline : ∀ url title, Html.Attribute.outline
      (.escaped "href" url :: Html.titleAttributes title) = [⟨"href", none⟩] := by
    intro url title
    rw [Html.Attribute.outline_cons_of_not_contains (by decide),
      Html.Attribute.outline_titleAttributes]
  refine ⟨_, _, tags?_linkStart url title, tags?_linkStart url' title', ?_⟩
  simp only [List.map_cons, Html.Tag.outline, houtline]

theorem alike_headingHtml {heading heading' : Heading} (hlevel : heading.level = heading'.level)
    (hhtml : Html.Alike heading.html heading'.html) :
    Html.Alike (headingHtml heading) (headingHtml heading') := by
  have houtline : ∀ heading, Html.Attribute.outline (headingAttributes heading) =
      [⟨"id", none⟩] := by
    intro heading
    rw [headingAttributes, Html.Attribute.outline_cons_of_not_contains (by decide),
      Html.Attribute.outline_lineAttributes]
  have hstart : Html.Alike
      (Html.openTag (headingName heading.level) (headingAttributes heading))
      (Html.openTag (headingName heading'.level) (headingAttributes heading')) := by
    refine ⟨_, _, tags?_headingStart heading, tags?_headingStart heading', ?_⟩
    simp only [List.map_cons, Html.Tag.outline, houtline, hlevel]
  have hstop : Html.Alike (headingEnd heading.level) (headingEnd heading'.level) := by
    rw [hlevel]
    exact Html.Alike.refl_of_tags? (tags?_headingEnd heading'.level)
  rw [headingHtml_eq, headingHtml_eq]
  exact (hstart.append hhtml.trim).append hstop

end Renderer

/-! ## Footnotes -/

/-- The notes of two runs. -/
structure Note.Alike (note note' : Note) : Prop where
  label : note.label = note'.label
  referenced : note.referenced = note'.referenced
  body : Option.Rel Html.Alike note.body note'.body

namespace Footnotes

/-- The footnotes of two runs: the same notes, with alike texts. -/
structure Alike (fs fs' : Footnotes) : Prop where
  notes : List.Forall₂ Note.Alike fs.notes fs'.notes
  current : fs.current = fs'.current

theorem forall₂_modify {label : Text} {f f' : Note → Note} {notes notes' : List Note}
    (h : List.Forall₂ Note.Alike notes notes')
    (hf : ∀ note note', note.Alike note' → (f note).Alike (f' note')) :
    List.Forall₂ Note.Alike (modify label f notes) (modify label f' notes') := by
  induction h with
  | nil => exact .nil
  | cons hnote hrest ih =>
    rw [modify, modify, hnote.label]
    split
    · exact .cons (hf _ _ hnote) hrest
    · exact .cons hnote ih

namespace Alike

variable {fs fs' : Footnotes}

theorem labels (h : fs.Alike fs') : fs.notes.map (·.label) = fs'.notes.map (·.label) :=
  map_eq_of_forall₂ h.notes fun _ _ hnote => hnote.label

theorem number (h : fs.Alike fs') (label : Text) : fs.number label = fs'.number label := by
  have hindex := congrArg (List.findIdx (· = label)) h.labels
  rw [List.findIdx_map, List.findIdx_map] at hindex
  exact congrArg (· + 1) hindex

theorem know (h : fs.Alike fs') (label : Text) : (fs.know label).Alike (fs'.know label) := by
  have hany := congrArg (List.any · (· = label)) h.labels
  simp only [List.any_map] at hany
  unfold Footnotes.know
  rw [show fs.notes.any (·.label = label) = fs'.notes.any (·.label = label) from hany]
  split
  · exact h
  · exact ⟨List.rel_append h.notes (.cons ⟨rfl, rfl, .none⟩ .nil), h.current⟩

theorem refer (h : fs.Alike fs') (label : Text) : (fs.refer label).Alike (fs'.refer label) :=
  ⟨forall₂_modify (h.know label).notes fun _ _ hnote => ⟨hnote.label, rfl, hnote.body⟩,
    (h.know label).current⟩

theorem beginDefinition (h : fs.Alike fs') (label : Text) :
    (fs.beginDefinition label).Alike (fs'.beginDefinition label) :=
  ⟨(h.know label).notes, rfl⟩

theorem endDefinition (h : fs.Alike fs') {body body' : Text} (hbody : Html.Alike body body') :
    (fs.endDefinition body).Alike (fs'.endDefinition body') := by
  unfold Footnotes.endDefinition
  rw [← h.current]
  split
  · exact h
  · next label _ =>
    exact ⟨forall₂_modify (h.know label).notes fun _ _ hnote =>
      ⟨hnote.label, hnote.referenced, .some hbody⟩, rfl⟩

theorem item {note note' : Note} (h : note.Alike note') (n : Nat) :
    Html.Alike (Note.item n note) (Note.item n note') := by
  unfold Note.item
  rw [h.referenced]
  rcases eq_none_or_eq_some_of_rel h.body with ⟨hnote, hnote'⟩ | ⟨_, _, hnote, hnote', hbody⟩
  · rw [hnote, hnote']
    exact Html.Alike.nil
  · rw [hnote, hnote']
    have hstart := Html.Alike.refl_of_tags? (tags?_itemStart n)
    have hback : Html.Alike (if note'.referenced then backReference n else [])
        (if note'.referenced then backReference n else []) := by
      split
      · exact Html.Alike.refl_of_tags? (tags?_backReference n)
      · exact Html.Alike.nil
    exact ((hstart.append hbody).append hback).append (.of_isSome "</li>\n" (by decide))

theorem items {notes notes' : List Note} (h : List.Forall₂ Note.Alike notes notes') (n : Nat) :
    Html.Alike (Footnotes.items n notes) (Footnotes.items n notes') := by
  induction h generalizing n with
  | nil => exact Html.Alike.nil
  | cons hnote hrest ih => exact (item hnote n).append (ih (n + 1))

theorem sectionHtml (h : fs.Alike fs') : Html.Alike fs.sectionHtml fs'.sectionHtml := by
  have hbodies : fs.notes.map (·.body.isSome) = fs'.notes.map (·.body.isSome) :=
    map_eq_of_forall₂ h.notes fun _ _ hnote => isSome_eq_of_rel hnote.body
  have hall := congrArg (List.all · (!·)) hbodies
  simp only [List.all_map, Function.comp_def, Option.not_isSome] at hall
  unfold Footnotes.sectionHtml
  rw [hall]
  split
  · exact Html.Alike.nil
  · exact ((Html.Alike.refl_of_tags? tags?_sectionStart).append (items h.notes 1)).append
      (Html.Alike.refl_of_tags? tags?_sectionEnd)

end Alike

end Footnotes

/-! ## Two runs -/

/-- The open headings of two runs. -/
structure OpenHeading.Alike (h h' : OpenHeading) : Prop where
  level : h.level = h'.level
  html : Html.Alike h.html h'.html

namespace Renderer

/-- The states of two runs whose events differ in texts only: everything that decides which tags
are written is the same, and what was written is alike. -/
structure Alike (r r' : Renderer) : Prop where
  output : Html.Alike r.output r'.output
  code : r.code.isSome = r'.code.isSome
  table : r.table = r'.table
  image : r.image.isSome = r'.image.isSome
  opened : Option.Rel OpenHeading.Alike r.headings.opened r'.headings.opened
  footnotes : r.footnotes.Alike r'.footnotes
  saved : Option.Rel Html.Alike r.saved r'.saved
  quotes : r.quotes = r'.quotes
  inMetadata : r.inMetadata = r'.inMetadata
  markers : r.markers = [] ∧ r'.markers = []

namespace Alike

variable {r r' : Renderer} {a b : Text} {line line' : Option Nat}

theorem fresh : Alike {} {} :=
  ⟨Html.Alike.nil, rfl, rfl, rfl, .none, ⟨.nil, rfl⟩, .none, rfl, rfl, rfl, rfl⟩

theorem write (h : Alike r r') (hab : Html.Alike a b) : Alike (r.write a) (r'.write b) :=
  { h with output := h.output.append hab }

theorem isOpen (h : Alike r r') : r.headings.isOpen = r'.headings.isOpen :=
  isSome_eq_of_rel h.opened

theorem writeInline (h : Alike r r') (hab : Html.Alike a b) :
    Alike (r.writeInline a) (r'.writeInline b) := by
  unfold Renderer.writeInline
  rw [h.isOpen]
  split
  · have hpush : ∀ o o' : OpenHeading, o.Alike o' →
        OpenHeading.Alike { o with html := o.html ++ a } { o' with html := o'.html ++ b } :=
      fun _ _ ho => ⟨ho.level, ho.html.append hab⟩
    exact { h with opened := rel_map h.opened hpush }
  · exact h.write hab

theorem noteText (h : Alike r r') (s s' : Text) : Alike (r.noteText s) (r'.noteText s') := by
  have hpush : ∀ o o' : OpenHeading, o.Alike o' →
      OpenHeading.Alike { o with text := o.text ++ s } { o' with text := o'.text ++ s' } :=
    fun _ _ ho => ⟨ho.level, ho.html⟩
  exact { h with opened := rel_map h.opened hpush }

/-! ### Starts -/

theorem startHeading (h : Alike r r') (level : Nat) (id id' : Option Text) :
    Alike (r.startTag (.heading level id) line) (r'.startTag (.heading level id') line') :=
  { h with opened := .some ⟨rfl, Html.Alike.nil⟩ }

theorem startCode (h : Alike r r') (info info' : Option Text) :
    Alike (r.startTag (.codeBlock info) line) (r'.startTag (.codeBlock info') line') :=
  { h with code := rfl }

theorem startLink (h : Alike r r') (url title url' title' : Text) :
    Alike (r.startTag (.link url title) line) (r'.startTag (.link url' title') line') :=
  h.writeInline (alike_linkStart url title url' title')

theorem startImage (h : Alike r r') (url title url' title' : Text) :
    Alike (r.startTag (.image url title) line) (r'.startTag (.image url' title') line') :=
  { h with image := rfl }

theorem startQuote (h : Alike r r') (kind : Option Markdown.AlertKind) :
    Alike (r.startTag (.blockQuote kind) line) (r'.startTag (.blockQuote kind) line') := by
  cases kind with
  | none =>
    have hstart := Html.alike_lineTag "blockquote" "\n" (by decide) (by decide) line line'
    exact { h.write hstart with quotes := congrArg (none :: ·) h.quotes }
  | some kind =>
    exact { h.write (Html.alike_alertStart kind line line') with
      quotes := congrArg (some kind :: ·) h.quotes }

theorem startFootnote (h : Alike r r') (label : Text) :
    Alike (r.startTag (.footnoteDefinition label) line)
      (r'.startTag (.footnoteDefinition label) line') :=
  { h with
    footnotes := h.footnotes.beginDefinition label
    saved := .some h.output
    output := Html.Alike.nil }

theorem startCell (h : Alike r r') :
    Alike (r.startTag .tableCell line) (r'.startTag .tableCell line') := by
  have hcell : Html.Alike (cellStart r.table) (cellStart r'.table) := by
    rw [h.table]
    exact Html.Alike.refl_of_tags? (tags?_cellStart r'.table)
  exact h.write hcell

theorem startTag (h : Alike r r') {tag tag' : Tag} (htag : tag.Alike tag') :
    Alike (r.startTag tag line) (r'.startTag tag' line') := by
  have hline : ∀ name tail : Text, Html.Tag.isName name = true → Html.isPlain tail = true →
      Html.Alike ("<" ++ name ++ lineAttr line ++ (">" ++ tail))
        ("<" ++ name ++ lineAttr line' ++ (">" ++ tail)) :=
    fun name tail hname htail => Html.alike_lineTag name tail hname htail line line'
  cases htag with
  | heading level id id' => exact h.startHeading level id id'
  | codeBlock info info' => exact h.startCode info info'
  | link url title url' title' => exact h.startLink url title url' title'
  | image url title url' title' => exact h.startImage url title url' title'
  | refl =>
    cases tag with
    | paragraph =>
      have hstart := hline "p" [] (by decide) rfl
      exact h.write hstart
    | heading level id => exact h.startHeading level id id
    | blockQuote kind => exact h.startQuote kind
    | codeBlock info => exact h.startCode info info
    | list start => exact h.write (alike_listStart start line line')
    | item =>
      have hstart := hline "li" [] (by decide) rfl
      exact h.write hstart
    | footnoteDefinition label => exact h.startFootnote label
    | metadata => exact { h with inMetadata := rfl }
    | htmlBlock => exact h
    | definitionList =>
      have hstart := hline "dl" "\n" (by decide) (by decide)
      exact h.write hstart
    | definitionTitle => exact h.write (.of_isSome "<dt>" (by decide))
    | definition => exact h.write (.of_isSome "<dd>" (by decide))
    | table alignments =>
      have hstart := hline "table" "\n" (by decide) (by decide)
      exact { h.write hstart with table := rfl }
    | tableHead =>
      exact { h.write (.of_isSome "<thead>\n<tr>\n" (by decide)) with
        table := congrArg (fun t : TableCursor => { t with inHead := true, column := 0 }) h.table }
    | tableRow =>
      exact { h.write (.of_isSome "<tr>\n" (by decide)) with
        table := congrArg (fun t : TableCursor => { t with column := 0 }) h.table }
    | tableCell => exact h.startCell
    | emphasis => exact h.writeInline (.of_isSome "<em>" (by decide))
    | strong => exact h.writeInline (.of_isSome "<strong>" (by decide))
    | strikethrough => exact h.writeInline (.of_isSome "<del>" (by decide))
    | superscript => exact h.writeInline (.of_isSome "<sup>" (by decide))
    | subscript => exact h.writeInline (.of_isSome "<sub>" (by decide))
    | link url title => exact h.startLink url title url title
    | image url title => exact h.startImage url title url title

/-! ### Ends -/

theorem endHeading (h : Alike r r') : Alike r.endHeading r'.endHeading := by
  unfold Renderer.endHeading Headings.complete
  rcases eq_none_or_eq_some_of_rel h.opened with ⟨hr, hr'⟩ | ⟨o, o', hr, hr', hlevel, hhtml⟩
  · rw [hr, hr']
    exact h
  · rw [hr, hr']
    exact { h.write (alike_headingHtml hlevel hhtml) with opened := .none }

theorem endQuote (h : Alike r r') : Alike r.endQuote r'.endQuote := by
  unfold Renderer.endQuote
  rw [h.quotes]
  split
  · exact { h.write (.of_isSome Html.alertEnd (by decide)) with quotes := rfl }
  · exact { h.write (.of_isSome Html.blockQuoteEnd (by decide)) with quotes := rfl }
  · exact h.write (.of_isSome Html.blockQuoteEnd (by decide))

theorem endCode (h : Alike r r') : Alike r.endCode r'.endCode :=
  { h.write (Html.alike_codeBlock _ _ _ _ _ _) with code := rfl }

theorem endFootnote (h : Alike r r') : Alike r.endFootnote r'.endFootnote := by
  unfold Renderer.endFootnote
  rw [h.footnotes.current]
  split
  · rcases eq_none_or_eq_some_of_rel h.saved with ⟨hr, hr'⟩ | ⟨before, before', hr, hr', hbefore⟩
    · rw [hr, hr']
      exact { h with footnotes := h.footnotes.endDefinition Html.Alike.nil, saved := .none }
    · rw [hr, hr']
      exact { h with
        output := hbefore
        saved := .none
        footnotes := h.footnotes.endDefinition h.output }
  · exact h

theorem endImage (h : Alike r r') : Alike r.endImage r'.endImage := by
  have himage := h.image
  unfold Renderer.endImage
  cases hr : r.image with
  | none =>
    have hr' : r'.image = none := by simpa [hr] using himage.symm
    rw [hr']
    exact h
  | some image =>
    rw [hr] at himage
    obtain ⟨image', hr'⟩ := Option.isSome_iff_exists.1 himage.symm
    rw [hr']
    exact { h.writeInline (Html.alike_image _ _ _ _ _ _) with image := rfl }

theorem endCell (h : Alike r r') : Alike (r.endTag .tableCell) (r'.endTag .tableCell) := by
  have hcell : Html.Alike (if r.table.inHead then "</th>\n" else "</td>\n")
      (if r'.table.inHead then "</th>\n" else "</td>\n") := by
    rw [h.table]
    split
    · exact .of_isSome "</th>\n" (by decide)
    · exact .of_isSome "</td>\n" (by decide)
  exact { h.write hcell with
    table := congrArg (fun t : TableCursor => { t with column := t.column + 1 }) h.table }

theorem endTag (h : Alike r r') (tag : TagEnd) : Alike (r.endTag tag) (r'.endTag tag) := by
  cases tag with
  | paragraph => exact h.write (.of_isSome "</p>\n" (by decide))
  | heading level => exact h.endHeading
  | blockQuote kind => exact h.endQuote
  | codeBlock => exact h.endCode
  | list ordered =>
    cases ordered with
    | true => exact h.write (.of_isSome "</ol>\n" (by decide))
    | false => exact h.write (.of_isSome "</ul>\n" (by decide))
  | item => exact h.write (.of_isSome "</li>\n" (by decide))
  | footnoteDefinition => exact h.endFootnote
  | metadata => exact { h with inMetadata := rfl }
  | htmlBlock => exact h
  | definitionList => exact h.write (.of_isSome "</dl>\n" (by decide))
  | definitionTitle => exact h.write (.of_isSome "</dt>\n" (by decide))
  | definition => exact h.write (.of_isSome "</dd>\n" (by decide))
  | table => exact h.write (.of_isSome "</tbody>\n</table>\n" (by decide))
  | tableHead =>
    exact { h.write (.of_isSome "</tr>\n</thead>\n<tbody>\n" (by decide)) with
      table := congrArg (fun t : TableCursor => { t with inHead := false }) h.table }
  | tableRow => exact h.write (.of_isSome "</tr>\n" (by decide))
  | tableCell => exact h.endCell
  | emphasis => exact h.writeInline (.of_isSome "</em>" (by decide))
  | strong => exact h.writeInline (.of_isSome "</strong>" (by decide))
  | strikethrough => exact h.writeInline (.of_isSome "</del>" (by decide))
  | superscript => exact h.writeInline (.of_isSome "</sup>" (by decide))
  | subscript => exact h.writeInline (.of_isSome "</sub>" (by decide))
  | link => exact h.writeInline (.of_isSome "</a>" (by decide))
  | image => exact h.endImage

/-! ### Single events -/

theorem text (h : Alike r r') (s s' : Text) : Alike (r.text s) (r'.text s') := by
  have hcode := h.code
  have himage := h.image
  unfold Renderer.text
  rw [h.inMetadata]
  split
  · exact h
  · cases hr : r.code with
    | some code =>
      rw [hr] at hcode
      obtain ⟨code', hr'⟩ := Option.isSome_iff_exists.1 hcode.symm
      rw [hr']
      exact { h with code := rfl, inMetadata := rfl }
    | none =>
      have hr' : r'.code = none := by simpa [hr] using hcode.symm
      rw [hr']
      cases hi : r.image with
      | some image =>
        rw [hi] at himage
        obtain ⟨image', hi'⟩ := Option.isSome_iff_exists.1 himage.symm
        rw [hi']
        exact { h with code := rfl, image := rfl, inMetadata := rfl }
      | none =>
        have hi' : r'.image = none := by simpa [hi] using himage.symm
        rw [hi']
        have hplain := Html.Alike.of_isPlain (Html.isPlain_escape s) (Html.isPlain_escape s')
        exact (h.noteText s s').writeInline hplain

theorem inlineCode (h : Alike r r') (s s' : Text) :
    Alike (r.step (.code s) line) (r'.step (.code s') line') :=
  (h.noteText s s').writeInline (Html.alike_code s s')

theorem math (h : Alike r r') (s s' : Text) (display : Bool) :
    Alike ((r.noteText s).writeInline (Html.math s display))
      ((r'.noteText s').writeInline (Html.math s' display)) :=
  (h.noteText s s').writeInline (Html.alike_math s s' display)

theorem footnoteReference (h : Alike r r') (label : Text) :
    Alike (r.footnoteReference label) (r'.footnoteReference label) := by
  have hrefer : Alike { r with footnotes := r.footnotes.refer label }
      { r' with footnotes := r'.footnotes.refer label } :=
    { h with footnotes := h.footnotes.refer label }
  unfold Renderer.footnoteReference
  simp only
  rw [(h.footnotes.refer label).number label]
  exact hrefer.writeInline (Html.Alike.refl_of_tags? (Footnotes.tags?_referenceHtml _))

/-- Alike events keep two runs alike, unless they are raw HTML. -/
theorem step (h : Alike r r') {e e' : Event} (he : e.Alike e') (hraw : e.isRaw = false)
    (line line' : Option Nat) : Alike (r.step e line) (r'.step e' line') := by
  cases he with
  | start htag => exact h.startTag htag
  | text s s' => exact h.text s s'
  | code s s' => exact h.inlineCode s s'
  | inlineMath s s' => exact h.math s s' false
  | displayMath s s' => exact h.math s s' true
  | refl =>
    cases e with
    | start tag => exact h.startTag (.refl tag)
    | stop tag => exact h.endTag tag
    | text s => exact h.text s s
    | code s => exact h.inlineCode s s
    | html s => cases hraw
    | inlineHtml s => cases hraw
    | inlineMath s => exact h.math s s false
    | displayMath s => exact h.math s s true
    | footnoteReference label => exact h.footnoteReference label
    | softBreak =>
      have hbreak := Html.Alike.of_isPlain (a := "\n") (b := "\n") (by decide) (by decide)
      exact (h.noteText " " " ").writeInline hbreak
    | hardBreak => exact h.write (.of_isSome Html.hardBreak (by decide))
    | rule => exact h.write (.of_isSome Html.rule (by decide))
    | taskMarker checked =>
      cases checked with
      | true => exact h.write (.of_isSome (Html.taskMarker true) (by decide))
      | false => exact h.write (.of_isSome (Html.taskMarker false) (by decide))

/-! ### Runs -/

theorem steps (h : Alike r r') (lineOf? lineOf?' : Option (Nat → Nat)) {es es' : List Located}
    (hes : List.Forall₂ (fun e e' => e.event.Alike e'.event) es es')
    (hraw : ∀ e ∈ es, e.event.isRaw = false) :
    Alike (r.steps (es.map fun e => (e.event, lineOf?.map (· e.offset))))
      (r'.steps (es'.map fun e => (e.event, lineOf?'.map (· e.offset)))) := by
  induction hes generalizing r r' with
  | nil => exact h
  | cons he hrest ih =>
    rw [List.forall_mem_cons] at hraw
    exact ih (h.step he hraw.1 _ _) hraw.2

end Alike

theorem alike_renderLocated (options options' : Toc.Options)
    (lineOf? lineOf?' : Option (Nat → Nat)) {es es' : List Located}
    (hes : List.Forall₂ (fun e e' => e.event.Alike e'.event) es es')
    (hraw : ∀ e ∈ es, e.event.isRaw = false) :
    Html.Alike (({} : Renderer).renderLocated options lineOf? es).1.html
      (({} : Renderer).renderLocated options' lineOf?' es').1.html := by
  have hsteps := Alike.fresh.steps lineOf? lineOf?' hes hraw
  obtain ⟨hmarkers, hmarkers'⟩ := hsteps.markers
  unfold renderLocated finish
  simp only [hmarkers, hmarkers']
  exact hsteps.output.append hsteps.footnotes.sectionHtml

/-- Texts add no markup: if two documents without raw HTML differ in texts only, their pages consist
of the same tags, each with the attributes it always has, and no value of an attribute holds a
bracket or a double quote. -/
theorem tags?_renderLocated_of_alike (options options' : Toc.Options)
    (lineOf? lineOf?' : Option (Nat → Nat)) {es es' : List Located}
    (hes : List.Forall₂ (fun e e' => e.event.Alike e'.event) es es')
    (hraw : ∀ e ∈ es, e.event.isRaw = false) :
    ∃ ts ts', tags? (({} : Renderer).renderLocated options lineOf? es).1.html = some ts ∧
      tags? (({} : Renderer).renderLocated options' lineOf?' es').1.html = some ts' ∧
      ts.map Html.Tag.outline = ts'.map Html.Tag.outline ∧
      ∀ t ∈ ts ++ ts', ∀ a ∈ t.attributes, ∀ v, a.value = some v → '<' ∉ v ∧ '>' ∉ v ∧ '"' ∉ v := by
  obtain ⟨ts, ts', hts, hts', houtline⟩ :=
    alike_renderLocated options options' lineOf? lineOf?' hes hraw
  refine ⟨ts, ts', hts, hts', houtline, fun t ht a ha v hv => ?_⟩
  have hsound : t.isSound = true := by
    rcases List.mem_append.1 ht with hmem | hmem
    · exact Html.isSound_of_tags? hts hmem
    · exact Html.isSound_of_tags? hts' hmem
  have hattribute := Html.Tag.all_isSound_attributes hsound a ha
  have hvalue := (Html.Attribute.isSound_iff.1 hattribute).2.2 v hv
  rw [List.all_eq_true] at hvalue
  refine ⟨fun hmem => ?_, fun hmem => ?_, fun hmem => ?_⟩ <;>
    exact absurd (hvalue _ hmem) (by decide)

/-- A heading with a link, and an image and a code block in a paragraph that does not end, all with
the text `s`. -/
def eventsWith (s : Text) : List Located :=
  [⟨.start (.heading 2 (some s)), 0⟩, ⟨.text s, 3⟩, ⟨.start (.link s s), 5⟩, ⟨.code s, 6⟩,
    ⟨.stop .link, 9⟩, ⟨.stop (.heading 2), 0⟩, ⟨.start .paragraph, 10⟩, ⟨.start (.image s s), 10⟩,
    ⟨.text s, 11⟩, ⟨.stop .image, 10⟩, ⟨.start (.codeBlock (some s)), 13⟩, ⟨.text s, 14⟩,
    ⟨.stop .codeBlock, 13⟩]

theorem tags?_eventsWith_script :
    (∀ e ∈ eventsWith "x", e.event.isRaw = false) ∧
    ∃ ts ts', tags? (({} : Renderer).renderLocated {} none (eventsWith "x")).1.html = some ts ∧
      tags? (({} : Renderer).renderLocated {} none (eventsWith "\"><script>")).1.html = some ts' ∧
      ts.map Html.Tag.outline = ts'.map Html.Tag.outline ∧
      ∀ t ∈ ts ++ ts', ∀ a ∈ t.attributes, ∀ v, a.value = some v → '<' ∉ v ∧ '>' ∉ v ∧ '"' ∉ v := by
  have hes : List.Forall₂ (fun e e' => e.event.Alike e'.event) (eventsWith "x")
      (eventsWith "\"><script>") :=
    .cons (.start (.heading 2 _ _)) <| .cons (.text _ _) <| .cons (.start (.link _ _ _ _)) <|
      .cons (.code _ _) <| .cons (.refl _) <| .cons (.refl _) <| .cons (.refl _) <|
      .cons (.start (.image _ _ _ _)) <| .cons (.text _ _) <| .cons (.refl _) <|
      .cons (.start (.codeBlock _ _)) <| .cons (.text _ _) <| .cons (.refl _) .nil
  have hraw : ∀ e ∈ eventsWith "x", e.event.isRaw = false := by decide
  exact ⟨hraw, tags?_renderLocated_of_alike {} {} none none hes hraw⟩

end Renderer

end Galley.Render
