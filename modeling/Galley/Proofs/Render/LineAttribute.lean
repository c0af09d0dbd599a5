import Galley.Proofs.Html.Template
import Galley.Proofs.Render.Emission

/-!
# Lines only annotate

A run decides nothing by the lines of its events: it only writes them, at once or when a heading or
a code block ends. So all runs over the same events, whatever their lines are, are one run with the
lines left open (`Sketch`), and their pages are one page with the line attributes left open.
-/

namespace Galley.Render

open Html (Template Templated escape lineAttr)
open Markdown (Event Located Tag TagEnd)

variable {α : Type}

/-- A note whose text has places for lines. -/
abbrev NoteSketch (α : Type) := Note × Option (Template α)

def NoteSketch.fill (line : α → Option Nat) (note : NoteSketch α) : Note :=
  { note.1 with body := note.2.map (·.fill line) }

/-! ## Elements -/

section elements

variable (place : α)

theorem templated_listStart (start : Option Nat) :
    Templated fun line => Renderer.listStart start (lineAttr (line place)) := by
  unfold Renderer.listStart
  split
  · exact (Templated.lineStart "<ul" (by decide) "\n" place).congr fun line => by simp
  · exact (Templated.lineStart "<ol" (by decide) "\n" place).congr fun line => by simp
  · next n _ =>
    exact (Templated.lineTag ("<ol start=\"" ++ Text.ofNat n) '"' (by decide) "\n" place).congr
      fun line => by simp

theorem templated_alertStart (kind : Markdown.AlertKind) :
    Templated fun line => Html.alertStart kind (lineAttr (line place)) := by
  refine (Templated.lineTag ("<div class=\"alert alert-" ++ Html.alertClass kind) '"' (by decide)
    ("<p class=\"alert-title\">" ++ Html.alertTitle kind ++ "</p>\n") place).congr fun line => ?_
  unfold Html.alertStart
  simp

theorem templated_codeBlock (language : Option Text) (content : Text) :
    Templated fun line => Html.codeBlock language content (lineAttr (line place)) := by
  unfold Html.codeBlock
  split
  · exact (Templated.lineStart "<pre" (by decide)
      ("<code>" ++ escape content ++ "</code></pre>\n") place).congr fun line => by simp
  · next lang =>
    exact (Templated.lineStart "<pre" (by decide) ("<code class=\"language-" ++ escape lang
      ++ "\">" ++ escape content ++ "</code></pre>\n") place).congr fun line => by simp

theorem templated_headingHtml (heading : Heading) :
    Templated fun line => Renderer.headingHtml { heading with line := line place } := by
  refine (Templated.lineTag ("<h" ++ Text.ofNat heading.level ++ " id=\"" ++ escape heading.id)
    '"' (by decide)
    (Text.trim heading.html ++ "</h" ++ Text.ofNat heading.level ++ ">\n") place).congr fun line => ?_
  unfold Renderer.headingHtml
  simp

theorem templated_blockQuoteStart :
    Templated fun line => Html.blockQuoteStart (lineAttr (line place)) := by
  refine (Templated.lineStart "<blockquote" (by decide) "\n" place).congr fun line => ?_
  unfold Html.blockQuoteStart
  simp

end elements

/-! ## Footnotes -/

namespace Footnotes

/-- The footnotes are the same, filled in with all lines. -/
def Sketched (fs : (α → Option Nat) → Footnotes) : Prop :=
  ∃ (notes : List (NoteSketch α)) (current : Option Text),
    ∀ line, fs line = ⟨notes.map (NoteSketch.fill line), current⟩

namespace Sketched

variable {fs : (α → Option Nat) → Footnotes}

theorem congr {fs' : (α → Option Nat) → Footnotes} (h : Sketched fs)
    (heq : ∀ line, fs' line = fs line) : Sketched fs' := by
  obtain ⟨notes, current, hfs⟩ := h
  exact ⟨notes, current, fun line => (heq line).trans (hfs line)⟩

theorem current (h : Sketched fs) (label : Option Text) :
    Sketched fun line => { fs line with current := label } := by
  obtain ⟨notes, _, hfs⟩ := h
  exact ⟨notes, label, fun line => by simp only [hfs]⟩

theorem know (h : Sketched fs) (label : Text) : Sketched fun line => (fs line).know label := by
  obtain ⟨notes, current, hfs⟩ := h
  have hany : ∀ line, (fs line).notes.any (·.label = label) = notes.any (·.1.label = label) :=
    fun line => by rw [hfs]; exact List.any_map
  by_cases hknown : notes.any (·.1.label = label) = true
  · exact ⟨notes, current, fun line => (if_pos ((hany line).trans hknown)).trans (hfs line)⟩
  · refine ⟨notes ++ [({ label := label }, none)], current, fun line => ?_⟩
    refine (if_neg (by rw [hany]; exact hknown)).trans ?_
    rw [hfs, List.map_append]
    rfl

theorem modify (h : Sketched fs) (label : Text) {f : (α → Option Nat) → Note → Note}
    {g : NoteSketch α → NoteSketch α}
    (hfg : ∀ line note, f line (NoteSketch.fill line note) = NoteSketch.fill line (g note)) :
    Sketched fun line =>
      { fs line with notes := Footnotes.modify label (f line) (fs line).notes } := by
  obtain ⟨notes, current, hfs⟩ := h
  suffices hnotes : ∃ notes' : List (NoteSketch α), ∀ line,
      Footnotes.modify label (f line) (notes.map (NoteSketch.fill line)) =
        notes'.map (NoteSketch.fill line) by
    obtain ⟨notes', hnotes'⟩ := hnotes
    exact ⟨notes', current, fun line => by simp only [hfs, hnotes']⟩
  clear hfs
  induction notes with
  | nil => exact ⟨[], fun _ => rfl⟩
  | cons note notes ih =>
    obtain ⟨notes', hnotes'⟩ := ih
    by_cases hlabel : note.1.label = label
    · refine ⟨g note :: notes, fun line => ?_⟩
      rw [List.map_cons, List.map_cons, ← hfg]
      exact if_pos hlabel
    · refine ⟨note :: notes', fun line => ?_⟩
      rw [List.map_cons, List.map_cons, ← hnotes']
      exact if_neg hlabel

theorem refer (h : Sketched fs) (label : Text) : Sketched fun line => (fs line).refer label :=
  (h.know label).modify label (g := fun note => ({ note.1 with referenced := true }, note.2))
    fun _ _ => rfl

theorem exists_number (h : Sketched fs) (label : Text) :
    ∃ n, ∀ line, (fs line).number label = n := by
  obtain ⟨notes, current, hfs⟩ := h
  refine ⟨notes.findIdx (·.1.label = label) + 1, fun line => ?_⟩
  rw [hfs, Footnotes.number, List.findIdx_map]
  rfl

theorem endDefinition (h : Sketched fs) {html : (α → Option Nat) → Text} (hhtml : Templated html) :
    Sketched fun line => (fs line).endDefinition (html line) := by
  obtain ⟨t, ht⟩ := hhtml
  obtain ⟨notes, label?, hfs⟩ := id h
  cases label? with
  | none =>
    refine h.congr fun line => ?_
    rw [hfs]
    rfl
  | some label =>
    have hmodify := ((h.know label).current none).modify label
      (f := fun line note => { note with body := some (html line) })
      (g := fun note => (note.1, some t)) fun line _ => by rw [ht]; rfl
    refine hmodify.congr fun line => ?_
    have hcurrent : (fs line).current = some label := by rw [hfs]
    unfold Footnotes.endDefinition
    rw [hcurrent]

theorem sectionHtml (h : Sketched fs) : Templated fun line => (fs line).sectionHtml := by
  obtain ⟨notes, current, hfs⟩ := h
  have hitems : ∀ n, Templated fun line => items n (notes.map (NoteSketch.fill line)) := by
    clear hfs
    induction notes with
    | nil => exact fun n => .const []
    | cons note notes ih =>
      intro n
      refine Templated.append ?_ (ih (n + 1))
      obtain ⟨note, body⟩ := note
      cases body with
      | none => exact .const []
      | some t =>
        have hbody : Templated fun line => t.fill line := ⟨t, fun _ => rfl⟩
        refine (hbody.surround ("<li id=\"fn-" ++ Text.ofNat n ++ "\">\n")
          ((if note.referenced then backReference n else []) ++ "</li>\n")).congr fun line => ?_
        exact List.append_assoc _ _ _
  have hall : ∀ line, (fs line).notes.all (·.body.isNone) = notes.all (·.2.isNone) := by
    intro line
    rw [hfs, List.all_map]
    exact List.all_congr rfl fun note => by simp [NoteSketch.fill]
  by_cases hnone : notes.all (·.2.isNone) = true
  · exact (Templated.const []).congr fun line => if_pos ((hall line).trans hnone)
  · refine ((hitems 1).surround
      "<div class=\"footnotes\">\n<hr class=\"footnotes-sep\" />\n<ol>\n" "</ol>\n</div>\n").congr
        fun line => ?_
    refine (if_neg (by rw [hall]; exact hnone)).trans ?_
    rw [hfs]

end Sketched

end Footnotes

/-! ## Sketches -/

/-- The state of a run whose lines are left open. What is open and what was written knows the places
of its lines; a line goes nowhere else. -/
structure Sketch (α : Type) where
  /-- What lines do not go into. -/
  rest : Renderer
  output : Template α
  saved : Option (Template α)
  code : Option (OpenCode × α)
  heading : Option (OpenHeading × α)
  notes : List (NoteSketch α)

def Sketch.fill (s : Sketch α) (line : α → Option Nat) : Renderer :=
  { s.rest with
    output := s.output.fill line
    saved := s.saved.map (·.fill line)
    code := s.code.map fun p => { p.1 with line := line p.2 }
    headings :=
      { s.rest.headings with opened := s.heading.map fun p => { p.1 with line := line p.2 } }
    footnotes := { s.rest.footnotes with notes := s.notes.map (NoteSketch.fill line) } }

/-- The states are those of one sketch, filled in with all lines. -/
def Sketched (R : (α → Option Nat) → Renderer) : Prop :=
  ∃ s : Sketch α, ∀ line, R line = s.fill line

namespace Sketched

variable {R : (α → Option Nat) → Renderer}

theorem fresh : Sketched fun _ : α → Option Nat => {} :=
  ⟨⟨{}, [], none, none, none, []⟩, fun _ => rfl⟩

/-- What is done to the states is told by what is done to a sketch. -/
theorem bind (h : Sketched R) {f : (α → Option Nat) → Renderer → Renderer}
    (hf : ∀ s : Sketch α, Sketched fun line => f line (s.fill line)) :
    Sketched fun line => f line (R line) := by
  obtain ⟨s, hs⟩ := h
  obtain ⟨s', hs'⟩ := hf s
  exact ⟨s', fun line => (congrArg (f line) (hs line)).trans (hs' line)⟩

theorem congr {R' : (α → Option Nat) → Renderer} (h : Sketched R) (heq : ∀ line, R' line = R line) :
    Sketched R' := by
  obtain ⟨s, hs⟩ := h
  exact ⟨s, fun line => (heq line).trans (hs line)⟩

theorem rest (h : Sketched R) {g : Renderer → Renderer}
    (hg : ∀ (s : Sketch α) (line : α → Option Nat),
      g (s.fill line) = { s with rest := g s.rest }.fill line) :
    Sketched fun line => g (R line) :=
  h.bind (f := fun _ => g) fun s => ⟨{ s with rest := g s.rest }, hg s⟩

theorem noCode (h : Sketched R) : Sketched fun line => { R line with code := none } :=
  h.bind (f := fun _ r => { r with code := none }) fun s =>
    ⟨{ s with code := none }, fun _ => rfl⟩

theorem headings (h : Sketched R) (headings : Headings) (hnone : headings.opened = none) :
    Sketched fun line => { R line with headings } := by
  refine h.bind (f := fun _ r => { r with headings }) fun s =>
    ⟨{ s with heading := none, rest := { s.rest with headings } }, fun _ => ?_⟩
  obtain ⟨opened, toc, ids⟩ := headings
  obtain rfl : opened = none := hnone
  rfl

theorem footnotes (h : Sketched R) {fs : (α → Option Nat) → Footnotes}
    (hfs : Footnotes.Sketched fs) : Sketched fun line => { R line with footnotes := fs line } := by
  obtain ⟨s, hs⟩ := h
  obtain ⟨notes, current, hnotes⟩ := hfs
  refine ⟨{ s with
    rest := { s.rest with footnotes := { s.rest.footnotes with current } }, notes }, fun line => ?_⟩
  simp only [hs, hnotes, Sketch.fill]

end Sketched

namespace Sketch

variable (s : Sketch α)

/-! ## Writing -/

theorem write {html : (α → Option Nat) → Text} (h : Templated html) :
    Sketched fun line => (s.fill line).write (html line) := by
  obtain ⟨t, ht⟩ := h
  refine ⟨{ s with output := s.output ++ t }, fun line => ?_⟩
  simp only [fill, Renderer.write, Template.fill_append, ht]

theorem writeText (html : Text) : Sketched fun line => (s.fill line).write html :=
  s.write (Templated.const html)

theorem writeInline (html : Text) : Sketched fun line => (s.fill line).writeInline html := by
  cases hheading : s.heading with
  | none =>
    refine (s.writeText html).congr fun line => ?_
    have hopen : (s.fill line).headings.isOpen = false := by
      simp [fill, Headings.isOpen, hheading]
    exact if_neg (by simp [hopen])
  | some opened =>
    obtain ⟨opened, place⟩ := opened
    refine ⟨{ s with heading := some ({ opened with html := opened.html ++ html }, place) },
      fun line => ?_⟩
    have hopen : (s.fill line).headings.isOpen = true := by
      simp [fill, Headings.isOpen, hheading]
    refine (if_pos hopen).trans ?_
    simp [fill, Headings.pushHtml, hheading]

theorem noteText (text : Text) : Sketched fun line => (s.fill line).noteText text := by
  refine ⟨{ s with heading := s.heading.map fun p => ({ p.1 with text := p.1.text ++ text }, p.2) },
    fun line => ?_⟩
  simp [fill, Renderer.noteText, Headings.pushText, Function.comp_def]

/-! ## Footnotes -/

theorem sketched_footnotes : Footnotes.Sketched fun line => (s.fill line).footnotes :=
  ⟨s.notes, s.rest.footnotes.current, fun _ => rfl⟩

theorem startFootnote (label : Text) (place : α) :
    Sketched fun line => (s.fill line).startTag (.footnoteDefinition label) (line place) := by
  have haside : Sketched fun line =>
      { s.fill line with saved := some (s.fill line).output, output := [] } :=
    ⟨{ s with saved := some s.output, output := [] }, fun _ => rfl⟩
  exact haside.footnotes ((s.sketched_footnotes.know label).current (some label))

theorem endFootnote : Sketched fun line => (s.fill line).endFootnote := by
  have hcurrent : ∀ line, (s.fill line).footnotes.current = s.rest.footnotes.current := fun _ => rfl
  by_cases hopen : s.rest.footnotes.current.isSome = true
  · cases hsaved : s.saved with
    | none =>
      have hend := Sketched.footnotes ⟨s, fun _ => rfl⟩
        (s.sketched_footnotes.endDefinition (.const []))
      refine hend.congr fun line => ?_
      have hnone : (s.fill line).saved = none := by rw [fill, hsaved]; rfl
      unfold Renderer.endFootnote
      rw [if_pos (by rw [hcurrent]; exact hopen), hnone]
      simp only [hnone]
    | some page =>
      have hback : Sketched fun line =>
          { s.fill line with output := page.fill line, saved := none } :=
        ⟨{ s with output := page, saved := none }, fun _ => rfl⟩
      have hend := hback.footnotes (s.sketched_footnotes.endDefinition ⟨s.output, fun _ => rfl⟩)
      refine hend.congr fun line => ?_
      have hsome : (s.fill line).saved = some (page.fill line) := by rw [fill, hsaved]; rfl
      unfold Renderer.endFootnote
      rw [if_pos (by rw [hcurrent]; exact hopen), hsome]
      rfl
  · exact ⟨s, fun line => if_neg (by rw [hcurrent]; exact hopen)⟩

theorem footnoteReference (label : Text) :
    Sketched fun line => (s.fill line).footnoteReference label := by
  have hrefer := s.sketched_footnotes.refer label
  obtain ⟨n, hn⟩ := hrefer.exists_number label
  have hnotes := Sketched.footnotes ⟨s, fun _ => rfl⟩ hrefer
  refine (hnotes.bind (f := fun _ r => r.writeInline (Footnotes.referenceHtml n))
    fun s' => s'.writeInline _).congr fun line => ?_
  unfold Renderer.footnoteReference
  simp only [hn]

/-! ## Tags -/

theorem startTag (tag : Tag) (place : α) :
    Sketched fun line => (s.fill line).startTag tag (line place) := by
  have hlineTag : ∀ start tail : Text, start.getLast?.any (· ∉ ['<', '-', '>']) = true →
      Sketched fun line => (s.fill line).write (start ++ lineAttr (line place) ++ ('>' :: tail)) :=
    fun start tail hend => s.write (.lineStart start hend tail place)
  cases tag with
  | paragraph => exact (hlineTag "<p" [] (by decide)).congr fun line => by simp [Renderer.startTag]
  | item => exact (hlineTag "<li" [] (by decide)).congr fun line => by simp [Renderer.startTag]
  | definitionList =>
    exact (hlineTag "<dl" "\n" (by decide)).congr fun line => by simp [Renderer.startTag]
  | list start =>
    have hlist : Templated fun line => Renderer.listStart start (lineAttr (line place)) :=
      templated_listStart place start
    exact s.write hlist
  | blockQuote kind =>
    cases kind with
    | none =>
      exact (s.write (templated_blockQuoteStart place)).rest
        (g := fun r => { r with quotes := none :: r.quotes }) fun _ _ => rfl
    | some kind =>
      exact (s.write (templated_alertStart place kind)).rest
        (g := fun r => { r with quotes := some kind :: r.quotes }) fun _ _ => rfl
  | table alignments =>
    have htable := hlineTag "<table" "\n" (by decide)
    exact (htable.rest (g := fun r => { r with table := { alignments } }) fun _ _ => rfl).congr
      fun line => by simp [Renderer.startTag]
  | heading level id =>
    exact ⟨{ s with heading := some ({ level, explicitId := id, line := none }, place) },
      fun _ => rfl⟩
  | codeBlock info =>
    exact ⟨{ s with code := some ({ language := info.bind Text.firstWord? }, place) }, fun _ => rfl⟩
  | footnoteDefinition label => exact s.startFootnote label place
  | metadata => exact ⟨{ s with rest := { s.rest with inMetadata := true } }, fun _ => rfl⟩
  | image url title =>
    exact ⟨{ s with rest := { s.rest with image := some { url, title } } }, fun _ => rfl⟩
  | htmlBlock => exact ⟨s, fun _ => rfl⟩
  | definitionTitle | definition => exact s.writeText _
  | tableHead =>
    exact (s.writeText _).rest
      (g := fun r => { r with table := { r.table with inHead := true, column := 0 } }) fun _ _ => rfl
  | tableRow =>
    exact (s.writeText _).rest
      (g := fun r => { r with table := { r.table with column := 0 } }) fun _ _ => rfl
  | tableCell => exact s.writeText (Renderer.cellStart s.rest.table)
  | emphasis | strong | strikethrough | superscript | subscript | link _ _ => exact s.writeInline _

theorem endHeading : Sketched fun line => (s.fill line).endHeading := by
  have hopened : ∀ line, (s.fill line).headings.opened =
      s.heading.map fun p => { p.1 with line := line p.2 } := fun _ => rfl
  cases hheading : s.heading with
  | none =>
    refine ⟨s, fun line => Renderer.endHeading_of_none ?_⟩
    rw [hopened, hheading]
    rfl
  | some heading =>
    obtain ⟨opened, place⟩ := heading
    have hwritten := s.write (templated_headingHtml place (s.rest.headings.completed opened))
    refine (hwritten.headings {
      opened := none
      toc := s.rest.headings.toc ++ [s.rest.headings.entry opened]
      ids := s.rest.headings.ids.use opened.baseId } rfl).congr fun line => ?_
    have hsome : (s.fill line).headings.opened = some { opened with line := line place } := by
      rw [hopened, hheading]
      rfl
    have hcompleted : (s.fill line).headings.completed { opened with line := line place } =
        { s.rest.headings.completed opened with line := line place } := rfl
    have hentry : (s.fill line).headings.entry { opened with line := line place } =
        s.rest.headings.entry opened := rfl
    rw [Renderer.endHeading_of_some hsome, hcompleted, hentry]
    rfl

theorem endCode : Sketched fun line => (s.fill line).endCode := by
  cases hcode : s.code with
  | none =>
    refine ((s.writeText (Html.codeBlock none [] (lineAttr none))).noCode).congr fun line => ?_
    have hnone : (s.fill line).code = none := by rw [fill, hcode]; rfl
    rw [Renderer.endCode, hnone]
    rfl
  | some code =>
    obtain ⟨code, place⟩ := code
    have hwritten := s.write (templated_codeBlock place code.language code.content)
    refine hwritten.noCode.congr fun line => ?_
    have hsome : (s.fill line).code = some { code with line := line place } := by
      rw [fill, hcode]
      rfl
    rw [Renderer.endCode, hsome]
    rfl

theorem endQuote : Sketched fun line => (s.fill line).endQuote := by
  have hquotes : ∀ line, (s.fill line).quotes = s.rest.quotes := fun _ => rfl
  unfold Renderer.endQuote
  simp only [hquotes]
  split
  · next quotes _ =>
    exact (s.writeText _).rest (g := fun r => { r with quotes }) fun _ _ => rfl
  · next quotes _ =>
    exact (s.writeText _).rest (g := fun r => { r with quotes }) fun _ _ => rfl
  · exact s.writeText _

theorem endImage : Sketched fun line => (s.fill line).endImage := by
  have himage : ∀ line, (s.fill line).image = s.rest.image := fun _ => rfl
  unfold Renderer.endImage
  simp only [himage]
  split
  · exact ⟨s, fun _ => rfl⟩
  · exact (s.writeInline _).rest (g := fun r => { r with image := none }) fun _ _ => rfl

theorem endTag (tag : TagEnd) : Sketched fun line => (s.fill line).endTag tag := by
  cases tag with
  | heading _ => exact s.endHeading
  | blockQuote _ => exact s.endQuote
  | codeBlock => exact s.endCode
  | footnoteDefinition => exact s.endFootnote
  | metadata => exact ⟨{ s with rest := { s.rest with inMetadata := false } }, fun _ => rfl⟩
  | htmlBlock => exact ⟨s, fun _ => rfl⟩
  | tableHead =>
    exact (s.writeText _).rest
      (g := fun r => { r with table := { r.table with inHead := false } }) fun _ _ => rfl
  | tableCell =>
    exact (s.writeText (if s.rest.table.inHead then "</th>\n" else "</td>\n")).rest
      (g := fun r => { r with table := { r.table with column := r.table.column + 1 } })
      fun _ _ => rfl
  | image => exact s.endImage
  | emphasis | strong | strikethrough | superscript | subscript | link => exact s.writeInline _
  | _ => exact s.writeText _

/-! ## The other events -/

theorem noteInline (text html : Text) :
    Sketched fun line => ((s.fill line).noteText text).writeInline html :=
  (s.noteText text).bind (f := fun _ r => r.writeInline html) fun s' => s'.writeInline html

theorem text (text : Text) : Sketched fun line => (s.fill line).text text := by
  by_cases hopen : s.rest.inMetadata = true
  · exact ⟨s, fun line => if_pos hopen⟩
  cases hcode : s.code with
  | some code =>
    obtain ⟨code, place⟩ := code
    refine ⟨{ s with code := some ({ code with content := code.content ++ text }, place) },
      fun line => ?_⟩
    have hsome : (s.fill line).code = some { code with line := line place } := by
      rw [fill, hcode]
      rfl
    refine (if_neg hopen).trans ?_
    rw [hsome]
    rfl
  | none =>
    have hnone : ∀ line, (s.fill line).code = none := fun line => by rw [fill, hcode]; rfl
    cases himage : s.rest.image with
    | some image =>
      refine ⟨{ s with
        code := none
        rest := { s.rest with image := some { image with alt := image.alt ++ text } } },
        fun line => ?_⟩
      have hsome : (s.fill line).image = some image := himage
      refine (if_neg hopen).trans ?_
      rw [hnone, hsome]
      rfl
    | none =>
      refine (s.noteInline text (escape text)).congr fun line => ?_
      have himage' : (s.fill line).image = none := himage
      refine (if_neg hopen).trans ?_
      rw [hnone, himage']

theorem rawHtml (html : Text) : Sketched fun line => (s.fill line).rawHtml html := by
  unfold Renderer.rawHtml
  split
  · exact s.writeInline html
  · next marker _ =>
    exact (s.writeText (Renderer.placeholder s.rest.markers.length)).rest
      (g := fun r => { r with markers := r.markers ++ [marker] }) fun _ _ => rfl

theorem step (event : Event) (place : α) :
    Sketched fun line => (s.fill line).step event (line place) := by
  cases event with
  | start tag => exact s.startTag tag place
  | stop tag => exact s.endTag tag
  | text text => exact s.text text
  | html html | inlineHtml html => exact s.rawHtml html
  | footnoteReference label => exact s.footnoteReference label
  | code _ | inlineMath _ | displayMath _ | softBreak => exact s.noteInline _ _
  | hardBreak | rule | taskMarker _ => exact s.writeText _

end Sketch

theorem sketched_steps (events : List (Event × α)) :
    Sketched fun line : α → Option Nat =>
      ({} : Renderer).steps (events.map fun e => (e.1, line e.2)) := by
  induction events using List.reverseRecOn with
  | nil => exact .fresh
  | append_singleton events e ih =>
    refine (ih.bind (f := fun line r => r.step e.1 (line e.2)) fun s => s.step e.1 e.2).congr
      fun line => ?_
    rw [List.map_append]
    exact Renderer.steps_concat _ _ e.1 (line e.2)

/-! ## Pages -/

theorem unbroken_placeholder (index : Nat) :
    Html.Unbroken ("mdv-toc-placeholder-" ++ Text.ofNat index) where
  plain := Renderer.isPlain_placeholder index
  blank := by
    have hdigits := Text.all_isDigit_ofNat index
    rw [List.all_eq_true] at hdigits
    rw [List.mem_append, not_or]
    exact ⟨by decide, fun hblank => absurd (hdigits _ hblank) (by decide)⟩

theorem templated_fillMarkers (toc : List Toc.Entry) (options : Toc.Options) (index : Nat)
    (markers : List Toc.Marker) {html : (α → Option Nat) → Text} (h : Templated html) :
    Templated fun line => Renderer.fillMarkers toc options index markers (html line) := by
  induction markers generalizing index html with
  | nil => exact h
  | cons marker markers ih =>
    refine ih (index + 1) ?_
    rw [Renderer.placeholder_eq]
    exact h.replace (unbroken_placeholder index) _

/-- The pages of the same events with all lines are one template filled in, and have the same
table of contents. -/
theorem exists_page_eq (options : Toc.Options) (events : List (Event × α)) :
    ∃ (t : Template α) (toc : List Toc.Entry), ∀ line : α → Option Nat,
      ((({} : Renderer).steps (events.map fun e => (e.1, line e.2))).finish options).1 =
        ⟨t.fill line, toc⟩ := by
  obtain ⟨s, hs⟩ := sketched_steps events
  have hunfilled : Templated fun line =>
      (s.fill line).output ++ (s.fill line).footnotes.sectionHtml :=
    .append ⟨s.output, fun _ => rfl⟩ s.sketched_footnotes.sectionHtml
  obtain ⟨t, ht⟩ := templated_fillMarkers s.rest.headings.toc options 0 s.rest.markers hunfilled
  refine ⟨t, s.rest.headings.toc, fun line => ?_⟩
  refine (congrArg (fun r => (r.finish options).1) (hs line)).trans ?_
  exact congrArg (Renderer.Page.mk · s.rest.headings.toc) (ht line)

/-- Lines only annotate: with lines, a page is what it is without them, with the line attributes of
some of its events written between its pieces. -/
theorem renderLocated_interleaves (options : Toc.Options) (events : List Located) :
    ∃ (pieces : List Text) (offsets : List Nat), pieces.length = offsets.length + 1 ∧
      (∀ offset ∈ offsets, ∃ e ∈ events, e.offset = offset) ∧
      (∀ lineOf : Nat → Nat,
        (({} : Renderer).renderLocated options (some lineOf) events).1.html =
          Html.interleave pieces
            (offsets.map fun offset => " line=\"" ++ Text.ofNat (lineOf offset) ++ "\"")) ∧
      (({} : Renderer).render options (events.map (·.event))).1.html = pieces.flatten ∧
      ∀ lineOf? : Option (Nat → Nat),
        (({} : Renderer).renderLocated options lineOf? events).1.toc =
          (({} : Renderer).render options (events.map (·.event))).1.toc := by
  obtain ⟨t, toc, ht⟩ := exists_page_eq options
    (events.attach.map fun e : { e // e ∈ events } => (e.1.event, e))
  have hlocated : ∀ lineOf? : Option (Nat → Nat),
      (({} : Renderer).renderLocated options lineOf? events).1 =
        ⟨t.fill fun e => lineOf?.map (· e.1.offset), toc⟩ := by
    intro lineOf?
    rw [← ht, List.map_map]
    exact congrArg (fun es => ((({} : Renderer).steps es).finish options).1)
      (List.attach_map_val (f := fun e : Located => (e.event, lineOf?.map (· e.offset)))).symm
  have hrender : (({} : Renderer).render options (events.map (·.event))).1 =
      ⟨t.fill fun _ => none, toc⟩ := by
    rw [← ht, List.map_map, Renderer.render, List.map_map]
    exact congrArg (fun es => ((({} : Renderer).steps es).finish options).1)
      (List.attach_map_val (f := fun e : Located => (e.event, none))).symm
  refine ⟨t.pieces, t.places.map (·.1.offset), ?_, ?_, fun lineOf => ?_, ?_, fun lineOf? => ?_⟩
  · rw [List.length_map, Template.length_pieces]
  · rintro offset hoffset
    obtain ⟨e, -, rfl⟩ := List.mem_map.1 hoffset
    exact ⟨e.1, e.2, rfl⟩
  · rw [hlocated, Template.fill_eq_interleave, List.map_map]
    rfl
  · rw [hrender]
    exact t.fill_none
  · rw [hlocated, hrender]

end Galley.Render
