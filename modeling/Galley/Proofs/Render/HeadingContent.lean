import Galley.Proofs.Render.Emission
import Galley.Proofs.Render.ShownText

/-!
# What a heading contains

From its start to its end, a heading collects what its inline content writes, in the order of the
events, and becomes one element at its end. `InlineState` says what each event of inline content
writes. Hard line breaks and task markers do not look for an open heading: they are written to the
page at once, so they stand in front of the heading (`Renderer.output_heading`).
-/

namespace Galley.Markdown

/-- What an event of inline content writes in front of the heading that it stands in. -/
def Event.aside : Event → Text
  | .hardBreak => Html.hardBreak
  | .taskMarker checked => Html.taskMarker checked
  | _ => []

/-- Whether the event is part of inline content without raw HTML. -/
def Event.isPhrase : Event → Bool
  | .hardBreak | .taskMarker _ => true
  | e => e.goesInline

theorem Event.aside_cases {e : Event} (he : e.isPhrase = true) :
    e.goesInline = true ∧ e.aside = [] ∨
      e.goesInline = false ∧ ∃ c t, e.aside = '<' :: c :: t ∧ c ≠ 'h' := by
  cases e with
  | hardBreak => exact .inr ⟨rfl, 'b', "r />\n", rfl, by decide⟩
  | taskMarker checked =>
    cases checked with
    | true => exact .inr ⟨rfl, 'i', "nput type=\"checkbox\" checked disabled> ", rfl, by decide⟩
    | false => exact .inr ⟨rfl, 'i', "nput type=\"checkbox\" disabled> ", rfl, by decide⟩
  | _ => exact .inl ⟨he, rfl⟩

theorem flatMap_aside_cases {es : List Event} (hes : ∀ e ∈ es, e.isPhrase = true) :
    (∀ e ∈ es, e.goesInline = true) ∧ es.flatMap Event.aside = [] ∨
      (¬ ∀ e ∈ es, e.goesInline = true) ∧
        ∃ c t, es.flatMap Event.aside = '<' :: c :: t ∧ c ≠ 'h' := by
  induction es with
  | nil => exact .inl ⟨fun e he => absurd he List.not_mem_nil, rfl⟩
  | cons e es ih =>
    rw [List.forall_mem_cons] at hes
    rw [List.forall_mem_cons, List.flatMap_cons]
    rcases Event.aside_cases hes.1 with ⟨hinline, haside⟩ | ⟨hinline, c, t, haside, hc⟩
    · rw [haside, List.nil_append]
      rcases ih hes.2 with ⟨hall, hnil⟩ | ⟨hsome, hstart⟩
      · exact .inl ⟨⟨hinline, hall⟩, hnil⟩
      · exact .inr ⟨fun h => hsome h.2, hstart⟩
    · refine .inr ⟨fun h => ?_, c, t ++ es.flatMap Event.aside, ?_, hc⟩
      · exact Bool.false_ne_true (hinline.symm.trans h.1)
      · rw [haside]
        rfl

end Galley.Markdown

namespace Galley.Render

open Html (escape)
open Markdown (Event Tag TagEnd)

/-! ## Inline content -/

/-- What inline content leaves to the content behind it: the footnotes, whose numbers the references
show, and the image whose text is being collected. -/
structure InlineState where
  footnotes : Footnotes
  image : Option OpenImage := none
deriving DecidableEq, Repr

namespace InlineState

def after (s : InlineState) : Event → InlineState
  | .text text =>
    { s with image := s.image.map fun image => { image with alt := image.alt ++ text } }
  | .footnoteReference label => { s with footnotes := s.footnotes.refer label }
  | .start (.image url title) => { s with image := some { url, title } }
  | .stop .image => { s with image := none }
  | _ => s

/-- The HTML of the start of an inline element. An image is written at its end. -/
def startHtml : Tag → Text
  | .emphasis => "<em>"
  | .strong => "<strong>"
  | .strikethrough => "<del>"
  | .superscript => "<sup>"
  | .subscript => "<sub>"
  | .link url title => "<a href=\"" ++ escape url ++ "\"" ++ Html.titleAttr title ++ ">"
  | _ => []

/-- The HTML of the end of an inline element. -/
def stopHtml (s : InlineState) : TagEnd → Text
  | .emphasis => "</em>"
  | .strong => "</strong>"
  | .strikethrough => "</del>"
  | .superscript => "</sup>"
  | .subscript => "</sub>"
  | .link => "</a>"
  | .image =>
    match s.image with
    | none => []
    | some image => Html.image image.url image.alt image.title
  | _ => []

/-- The HTML of an event inside a heading. The text of an image is written with the image. -/
def html (s : InlineState) : Event → Text
  | .text text => if s.image.isSome then [] else escape text
  | .code code => "<code>" ++ escape code ++ "</code>"
  | .inlineMath source => Html.math source false
  | .displayMath source => Html.math source true
  | .footnoteReference label =>
    Footnotes.referenceHtml ((s.footnotes.refer label).number label)
  | .softBreak => "\n"
  | .start tag => startHtml tag
  | .stop tag => s.stopHtml tag
  | _ => []

/-- The plain text of an event, from which the title and the id of a heading are made. -/
def plain (s : InlineState) : Event → Text
  | .text text => if s.image.isSome then [] else text
  | .code text | .inlineMath text | .displayMath text => text
  | .softBreak => " "
  | _ => []

/-- What `f` says of each of the events in turn. -/
def collect (f : InlineState → Event → Text) (s : InlineState) : List Event → Text
  | [] => []
  | e :: es => f s e ++ collect f (s.after e) es

end InlineState

/-- An open heading with more text and HTML behind what it holds. -/
def OpenHeading.push (h : OpenHeading) (text html : Text) : OpenHeading :=
  { h with text := h.text ++ text, html := h.html ++ html }

namespace Renderer

/-! ## Inside a heading -/

section heading

variable {r : Renderer} {h : OpenHeading} {s : InlineState} {out : Text}

/-- The state inside the heading `h`, with `out` written to the page since it was started. -/
def inside (r : Renderer) (h : OpenHeading) (s : InlineState) (out : Text) : Renderer :=
  { r with
    output := r.output ++ out, headings := { r.headings with opened := some h },
    footnotes := s.footnotes, image := s.image }

theorem push_nil (h : OpenHeading) : h.push [] [] = h := by
  simp [OpenHeading.push]

theorem writeInline_inside (html : Text) :
    (r.inside h s out).writeInline html = r.inside (h.push [] html) s out := by
  simp [inside, writeInline, Headings.isOpen, Headings.pushHtml, OpenHeading.push]

theorem noteInline_inside (text html : Text) :
    ((r.inside h s out).noteText text).writeInline html = r.inside (h.push text html) s out := by
  simp [inside, noteText, writeInline, Headings.isOpen, Headings.pushText, Headings.pushHtml,
    OpenHeading.push]

theorem write_inside (html : Text) :
    (r.inside h s out).write html = r.inside h s (out ++ html) := by
  simp [inside, write]

theorem text_inside (hcode : r.code = none) (hmetadata : r.inMetadata = false) (text : Text) :
    (r.inside h s out).text text =
      r.inside (h.push (s.plain (.text text)) (s.html (.text text))) (s.after (.text text))
        out := by
  obtain ⟨output, code, table, before, headings, notes, saved, quotes, inMetadata, markers⟩ := r
  obtain rfl : code = none := hcode
  obtain rfl : inMetadata = false := hmetadata
  obtain ⟨footnotes, image⟩ := s
  cases image with
  | none => exact noteInline_inside text (escape text)
  | some image =>
    have hnothing : h.push [] [] = h := push_nil h
    exact congrArg (inside _ · ⟨footnotes, some { image with alt := image.alt ++ text }⟩ out)
      hnothing.symm

theorem endImage_inside :
    (r.inside h s out).endImage =
      r.inside (h.push [] (s.html (.stop .image))) (s.after (.stop .image)) out := by
  obtain ⟨footnotes, image⟩ := s
  cases image with
  | none =>
    show r.inside h ⟨footnotes, none⟩ out = r.inside (h.push [] []) _ out
    rw [push_nil]
    rfl
  | some image =>
    have himage : (r.inside h ⟨footnotes, some image⟩ out).image = some image := rfl
    rw [endImage_of_some himage, writeInline_inside]
    rfl

theorem step_inside_of_goesInline (hcode : r.code = none) (hmetadata : r.inMetadata = false)
    {e : Event} (he : e.goesInline = true) (line : Option Nat) :
    (r.inside h s out).step e line =
      r.inside (h.push (s.plain e) (s.html e)) (s.after e) out := by
  cases e with
  | text text => exact text_inside hcode hmetadata text
  | start tag =>
    cases tag with
    | image url title =>
      show r.inside h { s with image := some { url, title } } out = r.inside (h.push [] []) _ out
      rw [push_nil]
      rfl
    | emphasis | strong | strikethrough | superscript | subscript | link _ _ =>
      exact writeInline_inside _
    | _ => cases he
  | stop tag =>
    cases tag with
    | image => exact endImage_inside
    | emphasis | strong | strikethrough | superscript | subscript | link =>
      exact writeInline_inside _
    | _ => cases he
  | code _ | inlineMath _ | displayMath _ | softBreak => exact noteInline_inside _ _
  | footnoteReference label =>
    exact writeInline_inside (s := { s with footnotes := s.footnotes.refer label }) _
  | html _ | inlineHtml _ | hardBreak | rule | taskMarker _ => cases he

/-- Inline content is collected in the heading, apart from what it writes aside. -/
theorem step_inside (hcode : r.code = none) (hmetadata : r.inMetadata = false) {e : Event}
    (he : e.isPhrase = true) (line : Option Nat) :
    (r.inside h s out).step e line =
      r.inside (h.push (s.plain e) (s.html e)) (s.after e) (out ++ e.aside) := by
  rcases Event.aside_cases he with ⟨hinline, haside⟩ | ⟨hinline, -⟩
  · rw [haside, List.append_nil]
    exact step_inside_of_goesInline hcode hmetadata hinline line
  · cases e with
    | hardBreak | taskMarker _ =>
      show (r.inside h s out).write _ = r.inside (h.push [] []) s _
      rw [push_nil, write_inside]
      rfl
    | _ => exact absurd (hinline.symm.trans he) Bool.false_ne_true

theorem steps_inside (hcode : r.code = none) (hmetadata : r.inMetadata = false)
    {es : List (Event × Option Nat)} (hes : ∀ e ∈ es, e.1.isPhrase = true) :
    ∃ s', (r.inside h s out).steps es =
      r.inside (h.push (s.collect InlineState.plain (es.map (·.1)))
        (s.collect InlineState.html (es.map (·.1)))) s'
        (out ++ (es.map (·.1)).flatMap Event.aside) := by
  induction es generalizing h s out with
  | nil => exact ⟨s, by simp [steps, InlineState.collect, push_nil]⟩
  | cons e es ih =>
    rw [List.forall_mem_cons] at hes
    obtain ⟨s', hrest⟩ :=
      @ih (h.push (s.plain e.1) (s.html e.1)) (s.after e.1) (out ++ e.1.aside) hes.2
    refine ⟨s', ?_⟩
    have hfirst : (r.inside h s out).steps (e :: es) =
        ((r.inside h s out).step e.1 e.2).steps es := rfl
    rw [hfirst, step_inside hcode hmetadata hes.1, hrest]
    simp [InlineState.collect, OpenHeading.push]

theorem startTag_heading (himage : r.image = none) (level : Nat) (id : Option Text)
    (line : Option Nat) :
    r.startTag (.heading level id) line =
      r.inside { level, explicitId := id, line } { footnotes := r.footnotes } [] := by
  obtain ⟨output, code, table, image, headings, notes, saved, quotes, inMetadata, markers⟩ := r
  obtain rfl : image = none := himage
  simp only [inside, List.append_nil]
  rfl

theorem output_endHeading_inside :
    (r.inside h s out).endHeading.output =
      r.output ++ out ++ headingHtml (r.headings.completed h) := by
  rw [endHeading_of_some rfl]
  rfl

/-- What the events from the start to the end of a heading write. -/
theorem output_steps_heading (hquiet : r.Quiet) (level : Nat) (id : Option Text)
    {es : List (Event × Option Nat)} (hes : ∀ e ∈ es, e.1.isPhrase = true)
    (line line' : Option Nat) :
    let content : InlineState := { footnotes := r.footnotes }
    (r.steps ((.start (.heading level id), line) ::
        (es ++ [(.stop (.heading level), line')]))).output =
      r.output ++ (es.map (·.1)).flatMap Event.aside ++ headingHtml (r.headings.completed
        (({ level, explicitId := id, line } : OpenHeading).push
          (content.collect InlineState.plain (es.map (·.1)))
          (content.collect InlineState.html (es.map (·.1))))) := by
  intro content
  obtain ⟨s', hrun⟩ :=
    @steps_inside r { level, explicitId := id, line } content [] hquiet.code hquiet.metadata es hes
  have hstart : r.steps ((.start (.heading level id), line) ::
      (es ++ [(.stop (.heading level), line')])) =
        (r.startTag (.heading level id) line).steps (es ++ [(.stop (.heading level), line')]) := rfl
  rw [hstart, steps_concat, startTag_heading hquiet.image, hrun]
  exact output_endHeading_inside

/-- A heading becomes one element, which contains its inline content in order. What hard line breaks
and task markers write stands in front of it, so a heading is this one element exactly if it holds
none of them. -/
theorem output_heading (hquiet : r.Quiet) (level : Nat) (id : Option Text)
    {es : List (Event × Option Nat)} (hes : ∀ e ∈ es, e.1.isPhrase = true)
    (line line' : Option Nat) :
    let events := es.map (·.1)
    let content : InlineState := { footnotes := r.footnotes }
    let opened : OpenHeading :=
      { level, explicitId := id, line
        text := content.collect InlineState.plain events
        html := content.collect InlineState.html events }
    let output := (r.steps ((.start (.heading level id), line) ::
      (es ++ [(.stop (.heading level), line')]))).output
    output = r.output ++ events.flatMap Event.aside ++ headingHtml (r.headings.completed opened) ∧
      ((∃ heading, output = r.output ++ headingHtml heading) ↔
        ∀ e ∈ events, e.goesInline = true) := by
  intro events content opened output
  have hevents : ∀ e ∈ events, e.isPhrase = true := by
    intro e he
    obtain ⟨located, hmem, rfl⟩ := List.mem_map.1 he
    exact hes located hmem
  have houtput : output =
      r.output ++ events.flatMap Event.aside ++ headingHtml (r.headings.completed opened) :=
    output_steps_heading hquiet level id hes line line'
  refine ⟨houtput, ?_⟩
  rw [houtput]
  rcases Markdown.flatMap_aside_cases hevents with ⟨hall, hnil⟩ | ⟨hsome, c, t, hstart, hc⟩
  · rw [hnil, List.append_nil]
    exact ⟨fun _ => hall, fun _ => ⟨_, rfl⟩⟩
  · refine ⟨fun ⟨heading, h⟩ => ?_, fun hall => absurd hall hsome⟩
    -- what stands in front of the heading does not begin as a heading does
    rw [List.append_assoc, List.append_cancel_left_eq, hstart] at h
    exact absurd (List.cons.inj (List.cons.inj h).2).1 hc

end heading

/-- Content of a heading: code in an emphasis, a line end, a reference and an image. -/
def sampleContent : List (Event × Option Nat) :=
  [(.start .strong, none), (.code "x < y", none), (.stop .strong, none), (.softBreak, none),
    (.footnoteReference "n", none), (.start (.image "u" "t"), none), (.text "z", none),
    (.stop .image, none)]

theorem output_heading_sampleContent :
    Quiet {} ∧ (∀ e ∈ sampleContent, e.1.isPhrase = true) ∧
      (steps {} ((.start (.heading 2 (some "i")), none) ::
        (sampleContent ++ [(.stop (.heading 2), none)]))).output =
        "<h2 id=\"i\"><strong><code>x &lt; y</code></strong>\n" ++
          Footnotes.referenceHtml 1 ++ Html.image "u" "z" "t" ++ "</h2>\n" := by
  have hes : ∀ e ∈ sampleContent, e.1.isPhrase = true := by decide
  have hquiet : Quiet {} := ⟨rfl, rfl, rfl⟩
  exact ⟨hquiet, hes, (output_heading hquiet 2 (some "i") hes none none).1.trans rfl⟩

/-- The hard line break of a heading stands in front of it. -/
theorem output_brokenHeading :
    (steps {} [(.start (.heading 1 none), none), (.text "a", none), (.hardBreak, none),
      (.text "b", none), (.stop (.heading 1), none)]).output = "<br />\n<h1 id=\"ab\">ab</h1>\n" ∧
      ∀ heading, headingHtml heading ≠ "<br />\n<h1 id=\"ab\">ab</h1>\n" := by
  refine ⟨by decide, fun heading h => ?_⟩
  cases h

end Renderer

end Galley.Render
