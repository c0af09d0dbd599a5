import Galley.Proofs.Markdown.Forest
import Galley.Proofs.Render.Element
import Galley.Proofs.Toc.Marker

/-!
# What rendering writes

Rendering writes to the page, or to the footnote definition being read, and to the open heading.
`Writes` says which texts were written to both between two states; all that rendering of a complete
piece leaves as it was is part of it. `Moves` reads the text written to the page as a walk; what
was written to the heading is balanced on its own.
-/

namespace Galley.Render

open Html (Balanced Walk isElement isPlain tags?)

/-! ## Notes -/

namespace Footnotes

/-- The texts of the notes close every element they open. -/
def Sound (fs : Footnotes) : Prop :=
  ∀ note ∈ fs.notes, ∀ body, note.body = some body → Balanced body

section notes

variable {P : Note → Prop} {fs : Footnotes} {label : Text}

theorem forall_modify {f : Note → Note} {notes : List Note} (h : ∀ note ∈ notes, P note)
    (hf : ∀ note, note.label = label → P note → P (f note)) :
    ∀ note ∈ modify label f notes, P note := by
  induction notes with
  | nil => exact h
  | cons note notes ih =>
    rw [List.forall_mem_cons] at h
    rw [modify]
    split
    · next hlabel => exact List.forall_mem_cons.2 ⟨hf note hlabel h.1, h.2⟩
    · exact List.forall_mem_cons.2 ⟨h.1, ih h.2⟩

theorem forall_know (h : ∀ note ∈ fs.notes, P note) (hnew : P { label }) :
    ∀ note ∈ (fs.know label).notes, P note := by
  unfold Footnotes.know
  split
  · exact h
  · exact List.forall_mem_append.2 ⟨h, List.forall_mem_cons.2 ⟨hnew, fun _ hnote => by cases hnote⟩⟩

theorem forall_refer (h : ∀ note ∈ fs.notes, P note) (hnew : P { label })
    (href : ∀ note, note.label = label → P note → P { note with referenced := true }) :
    ∀ note ∈ (fs.refer label).notes, P note :=
  forall_modify (forall_know h hnew) href

theorem forall_endDefinition {body : Text} (h : ∀ note ∈ fs.notes, P note)
    (hcurrent : ∀ label, fs.current = some label →
      P { label } ∧ ∀ note, note.label = label → P note → P { note with body := some body }) :
    ∀ note ∈ (fs.endDefinition body).notes, P note := by
  unfold Footnotes.endDefinition
  split
  · exact h
  · next label hlabel =>
    obtain ⟨hnew, hbody⟩ := hcurrent label hlabel
    exact forall_modify (forall_know h hnew) hbody

end notes

namespace Sound

variable {fs : Footnotes}

theorem know (h : fs.Sound) (label : Text) : (fs.know label).Sound :=
  forall_know h fun _ hbody => by cases hbody

theorem refer (h : fs.Sound) (label : Text) : (fs.refer label).Sound :=
  forall_refer h (fun _ hbody => by cases hbody) fun _ _ hnote => hnote

theorem endDefinition (h : fs.Sound) {text : Text} (htext : Balanced text) :
    (fs.endDefinition text).Sound := by
  refine forall_endDefinition h fun label _ => ⟨fun _ hbody => ?_, fun note _ _ body hbody => ?_⟩
  · cases hbody
  · rwa [← Option.some.inj hbody]

end Sound

theorem current_know (fs : Footnotes) (label : Text) : (fs.know label).current = fs.current := by
  unfold know
  split <;> rfl

theorem current_endDefinition (fs : Footnotes) (text : Text) :
    (fs.endDefinition text).current = none := by
  unfold endDefinition
  split
  · assumption
  · rfl

end Footnotes

/-! ## The open heading -/

/-- The level of the open heading, and its HTML so far. -/
def Headings.openHtml (hs : Headings) : Option (Nat × Text) :=
  hs.opened.map fun h => (h.level, h.html)

theorem Headings.openHtml_pushText (hs : Headings) (text : Text) :
    (hs.pushText text).openHtml = hs.openHtml := by
  simp [openHtml, pushText, Function.comp_def]

theorem Headings.openHtml_pushHtml (hs : Headings) (html : Text) :
    (hs.pushHtml html).openHtml = hs.openHtml.map fun h => (h.1, h.2 ++ html) := by
  simp [openHtml, pushHtml, Function.comp_def]

theorem Headings.isOpen_eq (hs : Headings) : hs.isOpen = hs.openHtml.isSome := by
  simp [isOpen, openHtml]

namespace Renderer

/-! ## Texts written -/

/-- What is put into the page at its end fits into it: the texts of the notes are balanced, and the
titles of the markers are plain. -/
structure Sound (r : Renderer) : Prop where
  notes : r.footnotes.Sound
  titles : ∀ marker ∈ r.markers, marker.title.all isPlain = true

/-- Between the two states `out` was written to the page and `head` to the open heading; block
quotes and footnote definitions that were begun since have ended. -/
structure Writes (r r' : Renderer) (out head : Text) : Prop where
  output : r'.output = r.output ++ out
  heading : r'.headings.openHtml = r.headings.openHtml.map fun h => (h.1, h.2 ++ head)
  saved : r'.saved = r.saved
  quotes : r'.quotes = r.quotes
  current : r'.footnotes.current = r.footnotes.current
  sound : r.Sound → r'.Sound

namespace Writes

variable {r r₁ r₂ : Renderer} {out out₁ head head₁ : Text}

theorem trans (h : Writes r r₁ out head) (h₁ : Writes r₁ r₂ out₁ head₁) :
    Writes r r₂ (out ++ out₁) (head ++ head₁) where
  output := by rw [h₁.output, h.output, List.append_assoc]
  heading := by simp [h₁.heading, h.heading, Function.comp_def]
  saved := h₁.saved.trans h.saved
  quotes := h₁.quotes.trans h.quotes
  current := h₁.current.trans h.current
  sound := fun hr => h₁.sound (h.sound hr)

theorem isOpen (h : Writes r r₁ out head) : r₁.headings.isOpen = r.headings.isOpen := by
  simp [Headings.isOpen_eq, h.heading]

theorem of_output (houtput : r₁.output = r.output ++ out) (hheadings : r₁.headings = r.headings)
    (hsaved : r₁.saved = r.saved) (hquotes : r₁.quotes = r.quotes)
    (hfootnotes : r₁.footnotes = r.footnotes) (hmarkers : r₁.markers = r.markers) :
    Writes r r₁ out [] where
  output := houtput
  heading := by simp [hheadings]
  saved := hsaved
  quotes := hquotes
  current := by rw [hfootnotes]
  sound := fun hr => ⟨hfootnotes ▸ hr.notes, hmarkers ▸ hr.titles⟩

theorem of_silent (houtput : r₁.output = r.output) (hheadings : r₁.headings = r.headings)
    (hsaved : r₁.saved = r.saved) (hquotes : r₁.quotes = r.quotes)
    (hfootnotes : r₁.footnotes = r.footnotes) (hmarkers : r₁.markers = r.markers) :
    Writes r r₁ [] [] :=
  of_output (houtput.trans (List.append_nil _).symm) hheadings hsaved hquotes hfootnotes hmarkers

theorem refl (r : Renderer) : Writes r r [] [] := of_silent rfl rfl rfl rfl rfl rfl

theorem write (r : Renderer) (html : Text) : Writes r (r.write html) html [] :=
  of_output rfl rfl rfl rfl rfl rfl

theorem noteText (r : Renderer) (text : Text) : Writes r (r.noteText text) [] [] where
  output := (List.append_nil _).symm
  heading := by simp [Renderer.noteText, Headings.openHtml_pushText]
  saved := rfl
  quotes := rfl
  current := rfl
  sound := fun hr => ⟨hr.notes, hr.titles⟩

theorem writeInline_of_isOpen {r : Renderer} (h : r.headings.isOpen = true) (html : Text) :
    Writes r (r.writeInline html) [] html := by
  rw [writeInline, if_pos h]
  exact {
    output := (List.append_nil _).symm
    heading := Headings.openHtml_pushHtml r.headings html
    saved := rfl
    quotes := rfl
    current := rfl
    sound := fun hr => ⟨hr.notes, hr.titles⟩ }

theorem writeInline_of_not_isOpen {r : Renderer} (h : r.headings.isOpen = false) (html : Text) :
    Writes r (r.writeInline html) html [] := by
  rw [writeInline, if_neg (by simp [h])]
  exact write r html

end Writes

/-! ## Walks of what is written -/

/-- What was written to the page between the two states leads from the open elements `s` to `s'`,
and what was written to the heading is balanced. -/
def Moves (r r' : Renderer) (s s' : List Text) : Prop :=
  ∃ out head, Writes r r' out head ∧ Walk out s s' ∧ Balanced head

namespace Moves

variable {r r₁ r₂ : Renderer} {s s₁ s₂ : List Text} {html : Text}

theorem trans (h : Moves r r₁ s s₁) (h₁ : Moves r₁ r₂ s₁ s₂) : Moves r r₂ s s₂ := by
  obtain ⟨out, head, hwrites, hwalk, hhead⟩ := h
  obtain ⟨out₁, head₁, hwrites₁, hwalk₁, hhead₁⟩ := h₁
  exact ⟨_, _, hwrites.trans hwrites₁, hwalk.append hwalk₁, hhead.append hhead₁⟩

theorem of_output (hwrites : Writes r r₁ html []) (hwalk : Walk html s s₁) : Moves r r₁ s s₁ :=
  ⟨_, _, hwrites, hwalk, Balanced.nil⟩

theorem of_silent (hwrites : Writes r r₁ [] []) (s : List Text) : Moves r r₁ s s :=
  of_output hwrites (Balanced.nil s)

theorem refl (r : Renderer) (s : List Text) : Moves r r s s := of_silent (Writes.refl r) s

theorem write (hwalk : Walk html s s₁) : Moves r (r.write html) s s₁ :=
  of_output (Writes.write r html) hwalk

theorem writeInline (r : Renderer) (h : Balanced html) (s : List Text) :
    Moves r (r.writeInline html) s s := by
  cases hopen : r.headings.isOpen with
  | true => exact ⟨_, _, Writes.writeInline_of_isOpen hopen html, Balanced.nil s, h⟩
  | false => exact of_output (Writes.writeInline_of_not_isOpen hopen html) (h s)

/-- An inline element stands in the heading or in the page as a whole: what is inside it opens and
ends no heading. -/
theorem inlineElement {name start stop : Text} {as : List Html.Attribute}
    (hstart : tags? start = some [.start name as]) (hstop : tags? stop = some [.stop name])
    (hname : isElement name = true) (hinner : ∀ s, Moves (r.writeInline start) r₁ s s)
    (s : List Text) : Moves r (r₁.writeInline stop) s s := by
  cases hopen : r.headings.isOpen with
  | true =>
    obtain ⟨out, head, hwrites, hwalk, hhead⟩ := hinner s
    have hbefore := Writes.writeInline_of_isOpen hopen start
    have hafter := Writes.writeInline_of_isOpen ((hwrites.isOpen.trans hbefore.isOpen).trans hopen) stop
    refine ⟨_, _, (hbefore.trans hwrites).trans hafter, ?_, fun t => ?_⟩
    · simpa using hwalk
    · exact ((Walk.start hstart hname t).append (hhead _)).append (Walk.stop hstop t)
  | false =>
    obtain ⟨out, head, hwrites, hwalk, hhead⟩ := hinner (name :: s)
    have hbefore := Writes.writeInline_of_not_isOpen hopen start
    have hafter :=
      Writes.writeInline_of_not_isOpen ((hwrites.isOpen.trans hbefore.isOpen).trans hopen) stop
    refine ⟨_, _, (hbefore.trans hwrites).trans hafter, ?_, ?_⟩
    · exact ((Walk.start hstart hname s).append hwalk).append (Walk.stop hstop s)
    · simpa using hhead

end Moves

theorem table_writeInline (r : Renderer) (html : Text) : (r.writeInline html).table = r.table := by
  unfold writeInline
  split <;> rfl

end Renderer

end Galley.Render
