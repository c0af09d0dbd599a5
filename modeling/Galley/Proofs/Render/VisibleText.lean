import Galley.Proofs.Html.VisibleText
import Galley.Proofs.Render.Emission
import Galley.Proofs.Render.Straight

/-!
# Rendering keeps the visible text

A text is written where it stands, or it is collected first, in a code block or in a heading, and
written at its end. `Keeps` says for each of these places what the page, the open heading and the
open code block show together: the texts of the events so far. Every event keeps this
(`Keeps.step`), so at the end the page shows all texts, in order.
-/

namespace Galley.Markdown

/-- Whether the element is one whose texts are shown and that adds no text of its own. -/
def Tag.isTextual : Tag → Bool
  | .blockQuote (some _) | .footnoteDefinition _ | .metadata | .htmlBlock | .image _ _ => false
  | _ => true

/-- Whether the end is that of an element whose texts are shown and that adds no text of its own. -/
def TagEnd.isTextual : TagEnd → Bool
  | .blockQuote (some _) | .footnoteDefinition | .metadata | .htmlBlock | .image => false
  | _ => true

/-- Whether the event shows its text and no other one. -/
def Event.isTextual : Event → Bool
  | .start tag => tag.isTextual
  | .stop tag => tag.isTextual
  | .html _ | .inlineHtml _ | .footnoteReference _ => false
  | _ => true

def Event.payload : Event → Text
  | .text s | .code s | .inlineMath s | .displayMath s => s
  | _ => []

theorem Event.isShown_of_isTextual {e : Event} (h : e.isTextual = true) : e.isShown = true := by
  cases e with
  | start tag => cases tag <;> first | rfl | cases h
  | html _ | inlineHtml _ => cases h
  | _ => rfl

theorem Event.isNoteMark_of_isTextual {e : Event} (h : e.isTextual = true) : e.isNoteMark = false := by
  cases e with
  | start tag => cases tag <;> first | rfl | cases h
  | stop tag => cases tag <;> first | rfl | cases h
  | _ => rfl

end Galley.Markdown

namespace Galley.Render.Renderer

open Html (Shows lineAttr)
open Markdown (Event Forest Place Tag TagEnd placeAfter?)
open Text (withoutBlanks withoutBlanks_append)

/-! ## What an event shows -/

theorem shows_emitted_start (r : Renderer) {tag : Tag} (htag : tag.isTextual = true)
    (line : Option Nat) : Shows (r.emitted (.start tag) line) [] := by
  cases tag with
  | paragraph => exact Shows.lineTag "p" [] (by decide) rfl line
  | blockQuote kind =>
    cases kind with
    | none => exact Shows.lineTag "blockquote" "\n" (by decide) (by decide) line
    | some kind => cases htag
  | list start =>
    have hopen := (Shows.openTag _ (isName_listName start) (all_isSound_startAttributes start line)).append
      (.of_any (by decide) : Shows "\n" [])
    rwa [← listStart_eq] at hopen
  | item => exact Shows.lineTag "li" [] (by decide) rfl line
  | definitionList => exact Shows.lineTag "dl" "\n" (by decide) (by decide) line
  | table _ => exact Shows.lineTag "table" "\n" (by decide) (by decide) line
  | tableCell =>
    have hopen := Shows.openTag _ (isName_cellName r.table.inHead) (all_isSound_styleAttributes r.table)
    rwa [← cellStart_eq] at hopen
  | link url title =>
    have hopen := Shows.openTag "a" (by decide) (all_isSound_linkAttributes url title)
    rwa [← linkStart_eq] at hopen
  | definitionTitle => exact (.of_any (by decide) : Shows "<dt>" [])
  | definition => exact (.of_any (by decide) : Shows "<dd>" [])
  | tableHead => exact (.of_any (by decide) : Shows "<thead>\n<tr>\n" [])
  | tableRow => exact (.of_any (by decide) : Shows "<tr>\n" [])
  | emphasis => exact (.of_any (by decide) : Shows "<em>" [])
  | strong => exact (.of_any (by decide) : Shows "<strong>" [])
  | strikethrough => exact (.of_any (by decide) : Shows "<del>" [])
  | superscript => exact (.of_any (by decide) : Shows "<sup>" [])
  | subscript => exact (.of_any (by decide) : Shows "<sub>" [])
  | heading _ _ | codeBlock _ => exact Shows.nil
  | footnoteDefinition _ | metadata | htmlBlock | image _ _ => cases htag

theorem shows_emitted_stop (r : Renderer) {tag : TagEnd} (htag : tag.isTextual = true)
    (hplace : (Event.stop tag).isPlaceMark = false) (line : Option Nat) :
    Shows (r.emitted (.stop tag) line) [] := by
  cases tag with
  | heading _ | codeBlock => cases hplace
  | blockQuote _ =>
    have halert : Shows Html.alertEnd [] := .of_any (by decide)
    have hquote : Shows Html.blockQuoteEnd [] := .of_any (by decide)
    show Shows r.apart.endQuote.output []
    unfold endQuote
    split
    · exact halert
    · exact hquote
    · exact hquote
  | list ordered =>
    cases ordered with
    | true => exact (.of_any (by decide) : Shows "</ol>\n" [])
    | false => exact (.of_any (by decide) : Shows "</ul>\n" [])
  | tableCell =>
    show Shows (if r.table.inHead then "</th>\n" else "</td>\n") []
    cases r.table.inHead with
    | true => exact (.of_any (by decide) : Shows "</th>\n" [])
    | false => exact (.of_any (by decide) : Shows "</td>\n" [])
  | paragraph => exact (.of_any (by decide) : Shows "</p>\n" [])
  | item => exact (.of_any (by decide) : Shows "</li>\n" [])
  | definitionList => exact (.of_any (by decide) : Shows "</dl>\n" [])
  | definitionTitle => exact (.of_any (by decide) : Shows "</dt>\n" [])
  | definition => exact (.of_any (by decide) : Shows "</dd>\n" [])
  | table => exact (.of_any (by decide) : Shows "</tbody>\n</table>\n" [])
  | tableHead => exact (.of_any (by decide) : Shows "</tr>\n</thead>\n<tbody>\n" [])
  | tableRow => exact (.of_any (by decide) : Shows "</tr>\n" [])
  | emphasis => exact (.of_any (by decide) : Shows "</em>" [])
  | strong => exact (.of_any (by decide) : Shows "</strong>" [])
  | strikethrough => exact (.of_any (by decide) : Shows "</del>" [])
  | superscript => exact (.of_any (by decide) : Shows "</sup>" [])
  | subscript => exact (.of_any (by decide) : Shows "</sub>" [])
  | link => exact (.of_any (by decide) : Shows "</a>" [])
  | footnoteDefinition | metadata | htmlBlock | image => cases htag

/-- Where nothing is collected, an event writes a text that shows the one it carries. -/
theorem shows_emitted {r : Renderer} (hquiet : Quiet r) {e : Event} (he : e.isTextual = true)
    (hplace : e.isPlaceMark = false) (line : Option Nat) :
    Shows (r.emitted e line) (withoutBlanks e.payload) := by
  cases e with
  | start tag => exact r.shows_emitted_start he line
  | stop tag => exact r.shows_emitted_stop he hplace line
  | text text =>
    have hapart : Quiet r.apart := ⟨hquiet.code, hquiet.image, hquiet.metadata⟩
    show Shows (r.apart.text text).output _
    rw [hapart.text_eq]
    exact Shows.escape text
  | code code => exact Shows.code code
  | inlineMath source => exact Shows.math source false
  | displayMath source => exact Shows.math source true
  | softBreak => exact (.of_any (by decide) : Shows "\n" [])
  | hardBreak => exact (.of_any (by decide) : Shows Html.hardBreak [])
  | rule => exact (.of_any (by decide) : Shows Html.rule [])
  | taskMarker checked =>
    cases checked with
    | true => exact (.of_any (by decide) : Shows (Html.taskMarker true) [])
    | false => exact (.of_any (by decide) : Shows (Html.taskMarker false) [])
  | html _ | inlineHtml _ | footnoteReference _ => cases he

theorem shows_headingHtml {heading : Heading} {u : Text} (h : Shows heading.html u) :
    Shows (headingHtml heading) u := by
  have hstart := Shows.openTag _ (isName_headingName heading.level) (all_isSound_headingAttributes heading)
  have hstop : Shows (headingEnd heading.level) [] := by
    have hsound : (Html.Tag.stop (headingName heading.level)).isSound = true := by
      simpa [Html.Tag.isSound] using isName_headingName heading.level
    exact (Shows.of_text? (Html.text?_tag hsound) rfl).append (.of_any (by decide) : Shows "\n" [])
  rw [headingHtml_eq]
  simpa using (hstart.append h.trim).append hstop

/-! ## What is shown so far -/

/-- In each place, the page shows the texts before it; in a heading or a code block, the rest of the
texts so far is collected there. -/
inductive Keeps (r : Renderer) : Place → Text → Prop
  | page {u : Text} (quiet : Quiet r) (closed : r.headings.openHtml = none)
      (output : Shows r.output u) : Keeps r .page u
  | heading {u v : Text} {opened : Nat × Text} (quiet : Quiet r)
      (heading : r.headings.openHtml = some opened) (output : Shows r.output u)
      (html : Shows opened.2 v) : Keeps r .heading (u ++ v)
  | code {u : Text} {code : OpenCode} (image : r.image = none) (metadata : r.inMetadata = false)
      (closed : r.headings.openHtml = none) (content : r.code = some code)
      (output : Shows r.output u) : Keeps r .code (u ++ withoutBlanks code.content)

theorem quiet_step {r : Renderer} (hquiet : Quiet r) {e : Event} (he : e.isTextual = true)
    (hplace : e.isPlaceMark = false) (line : Option Nat) : Quiet (r.step e line) := by
  have hshown := Event.isShown_of_isTextual he
  cases e with
  | start tag =>
    refine hquiet.startTag hshown (fun hliteral => ?_) line
    obtain ⟨info, rfl⟩ := exists_info_of_literal hliteral hshown
    cases hplace
  | stop tag => exact hquiet.endTag tag
  | _ => exact hquiet.step (by simp) (by simp) hshown line

theorem payload_of_not_goesInline {e : Event} (h : e.goesInline = false) : e.payload = [] := by
  cases e <;> first | rfl | cases h

section step

variable {r : Renderer} {e : Event}

theorem adds_step_of_closed (hclosed : r.headings.openHtml = none) (he : e.isTextual = true)
    (hplace : e.isPlaceMark = false) (line : Option Nat) :
    Adds r (r.step e line) (r.emitted e line) [] := by
  have hisOpen : r.headings.isOpen = false := by rw [Headings.isOpen_eq, hclosed]; rfl
  cases hinline : e.goesInline with
  | true => exact (addsInline_step r hinline line).page hisOpen
  | false =>
    exact adds_step r hinline (Event.isRaw_of_isShown (Event.isShown_of_isTextual he))
      (Event.isHeadingMark_of_not_isPlaceMark hplace) (Event.isNoteMark_of_isTextual he) line

end step

namespace Keeps

variable {r : Renderer} {q : Place} {u v : Text} {e : Event}

theorem step_page (quiet : Quiet r) (closed : r.headings.openHtml = none) (output : Shows r.output u)
    (he : e.isTextual = true) (hplace : e.isPlaceMark = false) (line : Option Nat) :
    Keeps (r.step e line) .page (u ++ withoutBlanks e.payload) := by
  have hadds := adds_step_of_closed closed he hplace line
  refine .page (quiet_step quiet he hplace line) ?_ ?_
  · rw [hadds.heading, closed]
    rfl
  · rw [hadds.output]
    exact output.append (shows_emitted quiet he hplace line)

theorem step_heading {opened : Nat × Text} (quiet : Quiet r)
    (heading : r.headings.openHtml = some opened) (output : Shows r.output u)
    (html : Shows opened.2 v) (he : e.isTextual = true) (hplace : e.isPlaceMark = false)
    (line : Option Nat) : Keeps (r.step e line) .heading (u ++ v ++ withoutBlanks e.payload) := by
  have hquiet := quiet_step quiet he hplace line
  have hemitted := shows_emitted quiet he hplace line
  cases hinline : e.goesInline with
  | true =>
    have hisOpen : r.headings.isOpen = true := by rw [Headings.isOpen_eq, heading]; rfl
    have hadds := (addsInline_step r hinline line).heading hisOpen
    have hheading : (r.step e line).headings.openHtml =
        some (opened.1, opened.2 ++ r.emitted e line) := by
      rw [hadds.heading, heading]
      rfl
    have houtput : Shows (r.step e line).output u := by rwa [hadds.output, List.append_nil]
    rw [List.append_assoc]
    exact .heading hquiet hheading houtput (html.append hemitted)
  | false =>
    -- all else, as a break, is written to the page before the heading, but shows nothing
    have hadds := adds_step r hinline (Event.isRaw_of_isShown (Event.isShown_of_isTextual he))
      (Event.isHeadingMark_of_not_isPlaceMark hplace) (Event.isNoteMark_of_isTextual he) line
    have hpayload : withoutBlanks e.payload = [] := by
      rw [payload_of_not_goesInline hinline]
      rfl
    have hheading : (r.step e line).headings.openHtml = some opened := by
      rw [hadds.heading, heading]
      exact congrArg some (Prod.ext rfl (List.append_nil opened.2))
    have houtput : Shows (r.step e line).output u := by
      rw [hadds.output, ← List.append_nil u, ← hpayload]
      exact output.append hemitted
    rw [hpayload, List.append_nil]
    exact .heading hquiet hheading houtput html

theorem step_code {code : OpenCode} (image : r.image = none) (metadata : r.inMetadata = false)
    (closed : r.headings.openHtml = none) (content : r.code = some code) (output : Shows r.output u)
    (text : Text) (line : Option Nat) : Keeps (r.step (.text text) line) .code
      (u ++ withoutBlanks code.content ++ withoutBlanks text) := by
  have hstep : r.step (.text text) line =
      { r with code := some { code with content := code.content ++ text } } := by
    show r.text text = _
    unfold Renderer.text
    rw [metadata, content]
    rfl
  have hcontent : (r.step (.text text) line).code =
      some { code with content := code.content ++ text } := by rw [hstep]
  rw [List.append_assoc, ← withoutBlanks_append]
  refine .code ?_ ?_ ?_ hcontent ?_ <;> rw [hstep] <;> assumption

theorem start_heading (quiet : Quiet r) (output : Shows r.output u) (level : Nat) (id : Option Text)
    (line : Option Nat) : Keeps (r.startTag (.heading level id) line) .heading (u ++ []) := by
  have hquiet : Quiet (r.startTag (.heading level id) line) :=
    ⟨quiet.code, quiet.image, quiet.metadata⟩
  have hheading : (r.startTag (.heading level id) line).headings.openHtml = some (level, []) := rfl
  exact .heading hquiet hheading output Shows.nil

theorem stop_heading {opened : Nat × Text} (quiet : Quiet r)
    (heading : r.headings.openHtml = some opened) (output : Shows r.output u)
    (html : Shows opened.2 v) : Keeps r.endHeading .page (u ++ v) := by
  obtain ⟨opened, hopened, rfl⟩ := Option.map_eq_some_iff.1 heading
  have hheading : Shows (r.headings.completed opened).html v := html
  have houtput := output.append (shows_headingHtml hheading)
  rw [endHeading_of_some hopened]
  exact .page ⟨quiet.code, quiet.image, quiet.metadata⟩ rfl houtput

theorem start_code (quiet : Quiet r) (closed : r.headings.openHtml = none) (output : Shows r.output u)
    (info : Option Text) (line : Option Nat) :
    Keeps (r.startTag (.codeBlock info) line) .code (u ++ []) := by
  have hcode : (r.startTag (.codeBlock info) line).code =
      some { language := info.bind Text.firstWord?, line } := rfl
  refine .code ?_ ?_ ?_ hcode ?_
  · exact quiet.image
  · exact quiet.metadata
  · exact closed
  · exact output

theorem stop_code {code : OpenCode} (image : r.image = none) (metadata : r.inMetadata = false)
    (closed : r.headings.openHtml = none) (content : r.code = some code) (output : Shows r.output u) :
    Keeps r.endCode .page (u ++ withoutBlanks code.content) := by
  have houtput := output.append (Shows.codeBlock code.language code.content code.line)
  rw [endCode, content]
  exact .page ⟨rfl, image, metadata⟩ closed houtput

theorem step {p : Place} (h : Keeps r p u) (hplace : p.after? e = some q) (he : e.isTextual = true)
    (line : Option Nat) : Keeps (r.step e line) q (u ++ withoutBlanks e.payload) := by
  cases hmark : e.isPlaceMark with
  | false =>
    obtain rfl := Place.eq_of_after? hplace hmark
    cases h with
    | page quiet closed output => exact step_page quiet closed output he hmark line
    | heading quiet heading output html => exact step_heading quiet heading output html he hmark line
    | code image metadata closed content output =>
      obtain ⟨text, rfl⟩ := Place.exists_text_of_after? hplace hmark
      exact step_code image metadata closed content output text line
  | true =>
    unfold Event.isPlaceMark at hmark
    split at hmark
    · cases h with
      | page quiet closed output =>
        cases hplace
        exact start_heading quiet output _ _ line
      | heading _ _ _ _ | code _ _ _ _ _ => cases hplace
    · cases h with
      | heading quiet heading output html =>
        cases hplace
        exact (List.append_nil _).symm ▸ stop_heading quiet heading output html
      | page _ _ _ | code _ _ _ _ _ => cases hplace
    · cases h with
      | page quiet closed output =>
        cases hplace
        exact start_code quiet closed output _ line
      | heading _ _ _ _ | code _ _ _ _ _ => cases hplace
    · cases h with
      | code image metadata closed content output =>
        cases hplace
        exact (List.append_nil _).symm ▸ stop_code image metadata closed content output
      | page _ _ _ | heading _ _ _ _ => cases hplace
    · cases hmark

end Keeps

theorem Keeps.steps {r : Renderer} {p q : Place} {u : Text} {es : List (Event × Option Nat)} (h : Keeps r p u)
    (hplace : placeAfter? (es.map (·.1)) p = some q) (hes : ∀ e ∈ es, e.1.isTextual = true) :
    Keeps (r.steps es) q (u ++ withoutBlanks ((es.map (·.1)).flatMap (·.payload))) := by
  induction es generalizing r p u with
  | nil =>
    obtain rfl := Option.some.inj hplace
    exact (List.append_nil u).symm ▸ h
  | cons e es ih =>
    obtain ⟨p₁, hp₁, hrest⟩ := Option.bind_eq_some_iff.1 hplace
    rw [List.forall_mem_cons] at hes
    have hall := ih (h.step hp₁ hes.1 e.2) hrest hes.2
    rw [List.append_assoc, ← withoutBlanks_append] at hall
    exact hall

/-- Rendering keeps the visible text: without its tags, with the entities decoded once and without
blanks, the page of a well-nested document is the texts of its events without blanks, in order. -/
theorem visibleText_renderLocated (options : Toc.Options) (lineOf? : Option (Nat → Nat)) {f : Forest}
    (hfits : f.fits .blocks = true) (htextual : ∀ e ∈ f.events, e.isTextual = true) :
    ∃ s, Html.text? (({} : Renderer).renderLocated options lineOf? f.located).1.html = some s ∧
      withoutBlanks (Html.decode s) = withoutBlanks (f.events.flatMap (·.payload)) := by
  have hstraight : Straight .blocks f := ⟨hfits, fun e he =>
    ⟨Event.isRaw_of_isShown (Event.isShown_of_isTextual (htextual e he)),
      Event.isNoteMark_of_isTextual (htextual e he)⟩⟩
  have hhtml := html_renderLocated options lineOf? fun e he => (hstraight.events e he).1
  rw [sectionHtml_eq_nil lineOf? hstraight, List.append_nil] at hhtml
  have hfresh : Keeps ({} : Renderer) .page [] := .page ⟨rfl, rfl, rfl⟩ rfl Shows.nil
  have hplace := Forest.placeAfter?_events hfits (p := .page) rfl
  rw [← map_fst_lined lineOf? f] at hplace
  have hkeeps := hfresh.steps hplace fun e he => htextual e.1 (mem_lined he)
  rw [map_fst_lined, List.nil_append] at hkeeps
  cases hkeeps with
  | page _ _ output =>
    obtain ⟨s, hs, hblanks⟩ := output
    refine ⟨Html.escape s, hhtml ▸ hs, ?_⟩
    rw [Html.decode_escape, hblanks]

/-- A heading with a link, a blank at its end and a break in it, a code block in a list, and a
table, with texts that have to be escaped or look like entities. -/
def escapedTexts : Forest :=
  .element (.heading 2 (some "i")) 0 20
    (.leaf (.text "a & b") 3 <| .leaf .hardBreak 8 <|
      .element (.link "u?a&b" "t") 9 15 (.leaf (.code "<c>") 10 .nil) <| .leaf (.text "\u00a0") 16 .nil) <|
  .element (.list (some 3)) 21 60
    (.element .item 21 60
      (.leaf (.taskMarker true) 24 <| .leaf (.text "&amp;") 28 <|
        .element (.codeBlock (some "rust")) 35 60
          (.leaf (.text "x < 'y'\n") 40 <| .leaf (.text "\"z\"") 50 .nil) .nil) .nil) <|
  .element (.table [.left]) 61 90
    (.element .tableHead 61 70 (.element .tableCell 62 66 (.leaf (.inlineMath "m > 0") 63 .nil) .nil)
      .nil) <|
  .leaf .rule 91 .nil

theorem visibleText_escapedTexts :
    escapedTexts.fits .blocks = true ∧ (∀ e ∈ escapedTexts.events, e.isTextual = true) ∧
      ∃ s, Html.text? (({} : Renderer).renderLocated {} (some (· / 10 + 1)) escapedTexts.located).1.html =
          some s ∧
        withoutBlanks (Html.decode s) = "a&b<c>&amp;x<'y'\"z\"m>0".toList := by
  have hfits : escapedTexts.fits .blocks = true := by decide
  have htextual : ∀ e ∈ escapedTexts.events, e.isTextual = true := by decide
  obtain ⟨s, hs, hshown⟩ := visibleText_renderLocated {} (some (· / 10 + 1)) hfits htextual
  exact ⟨hfits, htextual, s, hs, hshown.trans (by decide)⟩

end Galley.Render.Renderer
