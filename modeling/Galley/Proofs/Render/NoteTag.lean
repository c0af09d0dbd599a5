import Galley.Proofs.Render.EventTags
import Mathlib.Data.List.Count

/-!
# The tags of footnotes

A reference is a link in a `sup` with an id, and a note is an item with an id; a note that was
referenced ends with a link back. Among the events only references write such tags
(`isNoteTag_of_mem_tagsOf`), so on a page all items with an id and all links back are those of the
section of notes, where they stand in the order of their numbers (`Lists.sectionHtml`).
-/

namespace Galley.Html

/-! ## Which tags belong to footnotes -/

/-- Whether the attribute is an id or the class of a link of a footnote. -/
def Attribute.isNoteMark (a : Attribute) : Bool :=
  a.key = "id" || a.key = "class" && a.value.any (Render.Renderer.noteClasses.contains ·)

namespace Tag

/-- Whether the tag opens an item that has an id. -/
def isNoteItem (t : Tag) : Bool := t.name = "li" && t.attributes.any (·.key = "id")

/-- Whether the tag opens a link back to a reference. -/
def isNoteBack (t : Tag) : Bool := t.attributes.contains ⟨"class", some "footnote-backref"⟩

def isNoteReference (t : Tag) : Bool :=
  t.name = "sup" && t.attributes.any (·.key = "id") ||
    t.attributes.contains ⟨"class", some "footnote-ref"⟩

def isNoteTag (t : Tag) : Bool := t.isNoteItem || t.isNoteBack || t.isNoteReference

theorem isNoteTag_eq_false_iff {t : Tag} : t.isNoteTag = false ↔
    t.isNoteItem = false ∧ t.isNoteBack = false ∧ t.isNoteReference = false := by
  rw [isNoteTag, Bool.or_eq_false_iff, Bool.or_eq_false_iff, and_assoc]

theorem isNoteTag_of_attributes {t : Tag} (h : ∀ a ∈ t.attributes, a.isNoteMark = false) :
    t.isNoteTag = false := by
  have hid : t.attributes.any (·.key = "id") = false := by
    rw [List.any_eq_false]
    intro a ha hkey
    have hmark := h a ha
    rw [Attribute.isNoteMark, hkey] at hmark
    cases hmark
  have hclass : ∀ a : Attribute, a.isNoteMark = true → t.attributes.contains a = false := by
    intro a ha
    rw [List.contains_eq_mem, decide_eq_false_iff_not]
    intro hmem
    rw [h a hmem] at ha
    cases ha
  have hback : t.isNoteBack = false := hclass _ (by decide)
  rw [isNoteTag_eq_false_iff, isNoteItem, isNoteReference, hback, hid, hclass _ (by decide)]
  simp only [Bool.and_false, Bool.or_false, and_self]

theorem isNoteTag_stop (name : Text) : (stop name).isNoteTag = false :=
  isNoteTag_of_attributes fun _ ha => absurd ha List.not_mem_nil

end Tag

end Galley.Html

namespace Galley.Render

open Html (Attribute Tagged tags?)
open Markdown (Event)

namespace Renderer

/-! ## Tags of events -/

theorem ordinary_isNoteMark : Ordinary fun a => a.isNoteMark = false where
  keyed := fun key hkey value => by
    have hne : (key = "id" || key = "class") = false := by
      revert key
      decide
    rw [Bool.or_eq_false_iff] at hne
    rw [Attribute.isNoteMark, hne.1, hne.2]
    rfl
  classed := fun value hvalue => by
    show (false || true && noteClasses.contains value) = false
    simpa using hvalue

theorem isNoteTag_of_mem_tagsOf (r : Renderer) {e : Event}
    (he : ∀ label, e ≠ .footnoteReference label) (line : Option Nat) :
    ∀ t ∈ r.tagsOf line e, t.isNoteTag = false :=
  fun t ht => Html.Tag.isNoteTag_of_attributes
    (ordinary_isNoteMark.tagsOf r he (fun _ _ _ => rfl) line t ht)

end Renderer

/-! ## Tags of the section of notes -/

namespace Footnotes

/-- The numbers of the notes that were referenced, if the first note has the number `n`. -/
def referencedFrom (n : Nat) (notes : List Note) : List Nat :=
  ((notes.zipIdx n).filter (·.1.referenced)).map (·.2)

theorem referencedFrom_cons (n : Nat) (note : Note) (notes : List Note) :
    referencedFrom n (note :: notes) =
      (if note.referenced then [n] else []) ++ referencedFrom (n + 1) notes := by
  rw [referencedFrom, List.zipIdx_cons, List.filter_cons]
  split <;> rfl

theorem nodup_referencedFrom (n : Nat) (notes : List Note) : (referencedFrom n notes).Nodup := by
  have hsub : (referencedFrom n notes).Sublist ((notes.zipIdx n).map (·.2)) :=
    List.filter_sublist.map _
  have hnumbers : (notes.zipIdx n).map (·.2) = List.range' n notes.length := List.zipIdx_map_snd n notes
  rw [hnumbers] at hsub
  exact (List.nodup_range' 1).sublist hsub

/-- The tag is neither an item with an id nor a link back; if it is one of a reference, it is a
`Q`. -/
structure Between (Q : Html.Tag → Prop) (t : Html.Tag) : Prop where
  item : t.isNoteItem = false
  back : t.isNoteBack = false
  reference : t.isNoteReference = true → Q t

/-- The items with an id and the links back in the text are those of the numbers, in order, and the
tags of references are all `Q`. -/
def Lists (Q : Html.Tag → Prop) (items backs : List Nat) (u : Text) : Prop :=
  ∃ ts, tags? u = some ts ∧ ts.filter (·.isNoteItem) = items.map itemTag ∧
    ts.filter (·.isNoteBack) = backs.map backTag ∧ ∀ t ∈ ts, t.isNoteReference = true → Q t

section lists

variable {Q : Html.Tag → Prop} {is is' bs bs' : List Nat} {u v : Text}

theorem between_of_isNoteTag {t : Html.Tag} (h : t.isNoteTag = false) : Between Q t := by
  obtain ⟨hitem, hback, href⟩ := Html.Tag.isNoteTag_eq_false_iff.1 h
  exact ⟨hitem, hback, fun htrue => by rw [href] at htrue; cases htrue⟩

namespace Lists

theorem append (hu : Lists Q is bs u) (hv : Lists Q is' bs' v) :
    Lists Q (is ++ is') (bs ++ bs') (u ++ v) := by
  obtain ⟨ts, hts, hitems, hbacks, href⟩ := hu
  obtain ⟨us, hus, hitems', hbacks', href'⟩ := hv
  refine ⟨ts ++ us, Html.tags?_append hts hus, ?_, ?_, List.forall_mem_append.2 ⟨href, href'⟩⟩
  · rw [List.filter_append, hitems, hitems', List.map_append]
  · rw [List.filter_append, hbacks, hbacks', List.map_append]

theorem of_tagged (h : Tagged (Between Q) u) : Lists Q [] [] u := by
  obtain ⟨ts, hts, hall⟩ := h
  refine ⟨ts, hts, List.filter_eq_nil_iff.2 fun t ht => ?_, List.filter_eq_nil_iff.2 fun t ht => ?_,
    fun t ht => (hall t ht).reference⟩
  · simp [(hall t ht).item]
  · simp [(hall t ht).back]

theorem nil : Lists Q [] [] [] := of_tagged Tagged.nil

theorem of_any (h : (tags? u).any (·.all (!·.isNoteTag)) = true) : Lists Q [] [] u := by
  obtain ⟨ts, hts, hall⟩ := (Option.any_eq_true _ _).1 h
  refine of_tagged ⟨ts, hts, fun t ht => between_of_isNoteTag ?_⟩
  simpa using List.all_eq_true.1 hall t ht

theorem itemStart (n : Nat) : Lists Q [n] [] ("<li id=\"fn-" ++ Text.ofNat n ++ "\">\n") := by
  have hitem : (itemTag n).isNoteItem = true ∧ (itemTag n).isNoteBack = false ∧
      (itemTag n).isNoteReference = false := ⟨rfl, rfl, rfl⟩
  refine ⟨[itemTag n], tags?_itemStart n, ?_, ?_, List.forall_mem_singleton.2 ?_⟩
  · rw [List.filter_singleton, hitem.1]
    rfl
  · rw [List.filter_singleton, hitem.2.1]
    rfl
  · rw [hitem.2.2]
    exact Bool.noConfusion

theorem backReference (n : Nat) : Lists Q [] [n] (Footnotes.backReference n) := by
  have hback : (backTag n).isNoteItem = false ∧ (backTag n).isNoteBack = true ∧
      (backTag n).isNoteReference = false := ⟨rfl, rfl, rfl⟩
  obtain ⟨hstopItem, hstopBack, hstopReference⟩ :=
    Html.Tag.isNoteTag_eq_false_iff.1 (Html.Tag.isNoteTag_stop "a")
  refine ⟨[backTag n, .stop "a"], tags?_backReference n, ?_, ?_, ?_⟩
  · simp only [List.filter_cons, hback.1, hstopItem, Bool.false_eq_true, if_false]
    rfl
  · simp only [List.filter_cons, hback.2.1, hstopBack, Bool.false_eq_true, if_false, if_true]
    rfl
  · simp only [List.forall_mem_cons, hback.2.2, hstopReference]
    simp

theorem item {note : Note} {body : Text} (hnote : note.body = some body)
    (hbody : Tagged (Between Q) body) (n : Nat) :
    Lists Q [n] (if note.referenced then [n] else []) (Note.item n note) := by
  have hback : Lists Q [] (if note.referenced then [n] else [])
      (if note.referenced then Footnotes.backReference n else []) := by
    split
    · exact backReference n
    · exact nil
  have hstop : Lists Q [] [] "</li>\n" := of_any (by decide)
  have hall := (((itemStart n).append (of_tagged hbody)).append hback).append hstop
  rw [Note.item, hnote]
  simpa using hall

theorem items {notes : List Note} (n : Nat)
    (h : ∀ note ∈ notes, ∃ body, note.body = some body ∧ Tagged (Between Q) body) :
    Lists Q (List.range' n notes.length) (referencedFrom n notes) (Footnotes.items n notes) := by
  induction notes generalizing n with
  | nil => exact nil
  | cons note notes ih =>
    rw [List.forall_mem_cons] at h
    obtain ⟨body, hnote, hbody⟩ := h.1
    rw [referencedFrom_cons, List.length_cons, List.range'_succ]
    exact (item hnote hbody n).append (ih (n + 1) h.2)

theorem sectionHtml {notes : List Note}
    (h : ∀ note ∈ notes, ∃ body, note.body = some body ∧ Tagged (Between Q) body) :
    Lists Q (List.range' 1 notes.length) (referencedFrom 1 notes)
      (Footnotes.sectionHtml { notes := notes }) := by
  cases notes with
  | nil => exact nil
  | cons note notes =>
    have hsome : ((note :: notes).all (·.body.isNone)) = false := by
      obtain ⟨body, hbody, -⟩ := h note List.mem_cons_self
      rw [List.all_cons, hbody]
      rfl
    have hstart : Lists Q [] [] "<div class=\"footnotes\">\n<hr class=\"footnotes-sep\" />\n<ol>\n" :=
      of_any (by decide)
    have hstop : Lists Q [] [] "</ol>\n</div>\n" := of_any (by decide)
    have hall := (hstart.append (items 1 h)).append hstop
    rw [Footnotes.sectionHtml, hsome, if_neg Bool.false_ne_true]
    simpa using hall

end Lists

/-! ### Reading the list -/

section read

variable {ts : List Html.Tag}

theorem anchor_inj {key start : Text} {m n : Nat} (h : anchor key start m = anchor key start n) :
    m = n :=
  Text.ofNat_inj (List.append_cancel_left (Option.some.inj (Attribute.mk.inj h).2))

theorem itemTag_injective : Function.Injective itemTag := fun _ _ h =>
  anchor_inj (List.cons.inj (Html.Tag.mk.inj h).2.2).1

theorem backTag_injective : Function.Injective backTag := fun _ _ h =>
  anchor_inj (List.cons.inj (Html.Tag.mk.inj h).2.2).1

theorem count_itemTag (h : ts.filter (·.isNoteItem) = is.map itemTag) (n : Nat) :
    ts.count (itemTag n) = is.count n := by
  have hitem : (itemTag n).isNoteItem = true := rfl
  rw [← List.count_filter hitem, h, List.count_map_of_injective is itemTag itemTag_injective]

theorem count_backTag (h : ts.filter (·.isNoteBack) = bs.map backTag) (n : Nat) :
    ts.count (backTag n) = bs.count n := by
  have hback : (backTag n).isNoteBack = true := rfl
  rw [← List.count_filter hback, h, List.count_map_of_injective bs backTag backTag_injective]

theorem lt_of_sublist (h : ts.filter (·.isNoteItem) = is.map itemTag) (his : is.Pairwise (· < ·))
    {m n : Nat} (hsub : [itemTag m, itemTag n].Sublist ts) : m < n := by
  have hitem : ∀ n, (itemTag n).isNoteItem = true := fun _ => rfl
  have hfilter := hsub.filter (·.isNoteItem)
  rw [h, List.filter_cons_of_pos (hitem m), List.filter_cons_of_pos (hitem n)] at hfilter
  have hsub : ([m, n].map itemTag).Sublist (is.map itemTag) := hfilter
  obtain ⟨ns, hns, heq⟩ := List.sublist_map_iff.1 hsub
  obtain rfl := (List.map_injective_iff.2 itemTag_injective) heq
  exact List.rel_of_pairwise_cons (his.sublist hns) List.mem_cons_self

end read

end lists

end Footnotes

end Galley.Render
