import Galley.Proofs.Html.BackLink
import Galley.Proofs.Render.Collected

/-!
# Links back that a document writes

What the events of a document write holds no link back from a footnote, unless the document itself
has a link to where a reference stands. So the only links back on a page are those of the notes that
were referenced, at the end of their items.
-/

namespace Galley.Html

/-! ## Attributes -/

theorem hasPrefix_of_hasPrefix_escape {p s : Text}
    (hp : '&' ∉ p) (h : Text.hasPrefix p (escape s) = true) : Text.hasPrefix p s = true := by
  rw [Text.hasPrefix_iff] at h ⊢
  obtain ⟨rest, h⟩ := h
  induction p generalizing s with
  | nil => exact ⟨s, rfl⟩
  | cons d p ih =>
    cases s with
    | nil => cases h
    | cons c s =>
      rw [List.mem_cons, not_or] at hp
      obtain ⟨rfl, hrest⟩ := eq_of_escape_cons_eq (Ne.symm hp.1) h
      obtain ⟨rest', hs⟩ := ih hp.2 hrest
      exact ⟨rest', congrArg (c :: ·) hs⟩

theorem Attribute.isBackLink_of_key {key : Text}
    (h : (key = "href" || Text.hasSuffix "class" key) = false) (value : Option Text) :
    (⟨key, value⟩ : Attribute).isBackLink = false := by
  rw [Bool.or_eq_false_iff] at h
  unfold Attribute.isBackLink
  rw [h.1, h.2]
  rfl

theorem Attribute.isBackLink_class {value : Text} (h : value ≠ "footnote-backref") :
    (⟨"class", some value⟩ : Attribute).isBackLink = false := by
  have hvalue : decide (some value = some "footnote-backref".toList) = false := by simpa using h
  show (false || true && decide (some value = some "footnote-backref".toList)) = false
  rw [hvalue]
  rfl

theorem Attribute.isBackLink_href {value : Text} (h : Text.hasPrefix "#fnref-" value = false) :
    (⟨"href", some value⟩ : Attribute).isBackLink = false := by
  show (true && Text.hasPrefix "#fnref-" value || false) = false
  rw [h]
  rfl

/-! ## Texts -/

namespace Unlinked

theorem of_tags {u : Text} {ts : List Tag} (h : tags? u = some ts)
    (hts : ts.all (!·.isBackLink) = true) : Unlinked u :=
  ⟨ts, h, fun t ht => by simpa using List.all_eq_true.1 hts t ht⟩

theorem of_any {u : Text} (h : (tags? u).any (·.all (!·.isBackLink)) = true) : Unlinked u := by
  obtain ⟨ts, hts, hall⟩ := (Option.any_eq_true _ _).1 h
  exact of_tags hts hall

theorem of_start {u name : Text} {as : List Attribute} (h : tags? u = some [.start name as])
    (has : as.any Attribute.isBackLink = false) : Unlinked u := by
  refine of_tags h ?_
  rw [List.all_cons, Tag.isBackLink, has]
  rfl

end Unlinked

end Galley.Html

namespace Galley.Markdown

/-- Whether the event starts a link to where the reference of a footnote stands. -/
def Event.linksToReference : Event → Bool
  | .start (.link url _) => Text.hasPrefix "#fnref-" url
  | _ => false

end Galley.Markdown

namespace Galley.Render

open Html (Attribute)
open Markdown (Event)

namespace Renderer

/-! ## Tags -/

theorem ordinary_isBackLink : Ordinary fun a => a.isBackLink = false where
  keyed := fun key hkey value => by
    refine Attribute.isBackLink_of_key ?_ value
    revert key
    decide
  classed := fun value hvalue => by
    refine Attribute.isBackLink_class fun heq => hvalue ?_
    rw [heq]
    decide

theorem isBackLink_of_attributes {t : Html.Tag} (h : ∀ a ∈ t.attributes, a.isBackLink = false) :
    t.isBackLink = false := by
  rw [Html.Tag.isBackLink, List.any_eq_false]
  intro a ha
  rw [h a ha]
  exact Bool.false_ne_true

theorem isBackLink_href_of_linksToReference {url title : Text}
    (h : (Event.start (.link url title)).linksToReference = false) :
    (Attribute.escaped "href" url).isBackLink = false := by
  refine Attribute.isBackLink_href ?_
  by_contra hfound
  rw [Bool.not_eq_false] at hfound
  have hprefix : Text.hasPrefix "#fnref-" url = false := h
  rw [Html.hasPrefix_of_hasPrefix_escape (by decide) hfound] at hprefix
  cases hprefix

theorem isBackLink_of_mem_referenceTags (n : Nat) :
    ∀ t ∈ Footnotes.referenceTags n, t.isBackLink = false := by
  have hid : (Footnotes.anchor "id" "fnref-" n).isBackLink = false :=
    Attribute.isBackLink_of_key (by decide) _
  have hclass : (⟨"class", some "footnote-ref"⟩ : Attribute).isBackLink = false := by decide
  have hhref : (Footnotes.anchor "href" "#fn-" n).isBackLink = false := Attribute.isBackLink_href rfl
  have hstop : ∀ name, (Html.Tag.stop name).isBackLink = false := fun _ => rfl
  have hsup : (Footnotes.supTag n).isBackLink = false :=
    isBackLink_of_attributes (List.forall_mem_singleton.2 hid)
  have hlink : (Footnotes.referenceTag n).isBackLink = false :=
    isBackLink_of_attributes (List.forall_mem_cons.2 ⟨hclass, List.forall_mem_singleton.2 hhref⟩)
  rw [Footnotes.referenceTags, List.forall_mem_cons, List.forall_mem_cons, List.forall_mem_cons,
    List.forall_mem_singleton]
  exact ⟨hsup, hlink, hstop "a", hstop "sup"⟩

/-- No event writes a link back, unless it is a link to a reference. -/
theorem isBackLink_of_mem_tagsOf (r : Renderer) {e : Event} (hlink : e.linksToReference = false)
    (line : Option Nat) : ∀ t ∈ r.tagsOf line e, t.isBackLink = false := by
  by_cases hreference : ∃ label, e = .footnoteReference label
  · obtain ⟨label, rfl⟩ := hreference
    exact isBackLink_of_mem_referenceTags _
  · intro t ht
    refine isBackLink_of_attributes (ordinary_isBackLink.tagsOf r
      (fun label heq => hreference ⟨label, heq⟩) (fun url title heq => ?_) line t ht)
    subst heq
    exact isBackLink_href_of_linksToReference hlink

theorem lasts_unlinked : Lasts Html.Unlinked := by
  refine lasts_tagged (fun heading => isBackLink_of_attributes ?_) fun level => rfl
  have hid : (Attribute.escaped "id" heading.id).isBackLink = false :=
    Attribute.isBackLink_of_key (by decide) _
  exact List.forall_mem_cons.2 ⟨hid, ordinary_isBackLink.line heading.line⟩

/-! ## States -/

/-- Nothing that was written holds a link back. -/
structure Unlinked (r : Renderer) : Prop where
  output : Html.Unlinked r.output
  heading : ∀ opened, r.headings.opened = some opened → Html.Unlinked opened.html
  saved : ∀ page, r.saved = some page → Html.Unlinked page
  notes : ∀ note ∈ r.footnotes.notes, ∀ body, note.body = some body → Html.Unlinked body

theorem unlinked_iff_holds {r : Renderer} : Unlinked r ↔ Holds Html.Unlinked r :=
  ⟨fun h => ⟨h.output, openHas_iff.2 h.heading, h.saved, h.notes⟩,
    fun h => ⟨h.output, openHas_iff.1 h.heading, h.saved, h.notes⟩⟩

namespace Unlinked

variable {r : Renderer}

theorem fresh : Unlinked {} := unlinked_iff_holds.2 (.fresh lasts_unlinked)

theorem step (h : Unlinked r) {e : Event} (hraw : e.isRaw = false)
    (hlink : e.linksToReference = false) (line : Option Nat) : Unlinked (r.step e line) :=
  unlinked_iff_holds.2 ((unlinked_iff_holds.1 h).step lasts_unlinked hraw line fun hheading _ =>
    ⟨_, tags?_emitted r hraw hheading line, r.isBackLink_of_mem_tagsOf hlink line⟩)

theorem steps {es : List (Event × Option Nat)} (h : Unlinked r)
    (hes : ∀ e ∈ es, e.1.isRaw = false ∧ e.1.linksToReference = false) : Unlinked (r.steps es) := by
  induction es generalizing r with
  | nil => exact h
  | cons e es ih =>
    rw [List.forall_mem_cons] at hes
    exact ih (h.step hes.1.1 hes.1.2 e.2) hes.2

end Unlinked

end Renderer

end Galley.Render
