import Galley.Proofs.Html.Clean
import Galley.Proofs.Toc.Item
import Galley.Proofs.Toc.Marker

/-!
# Tables of contents without backslashes

A table of contents has a backslash only if its title, its classes or one of its entries has one.
The title of a marker is a part of the comment that it is read from.
-/

namespace Galley.Toc

theorem Marker.mem_of_ofComment? {html title : Text} {marker : Marker} {c : Char}
    (h : ofComment? html = some marker) (htitle : marker.title = some title) (hc : c ∈ title) :
    c ∈ html := by
  obtain ⟨rest, hrest, h⟩ := Option.bind_eq_some_iff.1 h
  obtain ⟨inner, hinner, h⟩ := Option.bind_eq_some_iff.1 h
  simp only at h
  split at h
  · obtain rfl := Option.some.inj h
    cases htitle
  · obtain ⟨quoted, hquoted, h⟩ := Option.bind_eq_some_iff.1 h
    obtain rfl := Option.some.inj h
    unfold ofTitle at htitle
    split at htitle
    · cases htitle
    · obtain rfl := Option.some.inj htitle
      have hmem : c ∈ Text.trim inner := by
        rw [Text.dropPrefix?_eq_some_iff.1 hquoted]
        exact List.mem_append_right _ (Text.mem_of_mem_trim hc)
      have hcomment : c ∈ rest := by
        rw [Text.dropSuffix?_eq_some_iff.1 hinner]
        exact List.mem_append_left _ (Text.mem_of_mem_trim hmem)
      refine Text.mem_of_mem_trim ?_
      rw [Text.dropPrefix?_eq_some_iff.1 hrest]
      exact List.mem_append_right _ hcomment

/-- The title and the classes of a table of contents have no backslash. -/
structure Options.Clean (options : Options) : Prop where
  title : '\\' ∉ options.title
  divClass : '\\' ∉ options.divClass
  listClass : '\\' ∉ options.listClass

theorem backslash_not_mem_items {items : Items}
    (h : ∀ entry ∈ items.entries, '\\' ∉ entry.title ∧ '\\' ∉ entry.id) : '\\' ∉ items.html := by
  induction items with
  | nil => exact List.not_mem_nil
  | cons entry nested rest hnested hrest =>
    rw [Items.entries, List.forall_mem_cons, List.forall_mem_append] at h
    obtain ⟨⟨htitle, hid⟩, hbelow, hbehind⟩ := h
    have hlink : '\\' ∉ entry.link := by
      unfold Entry.link
      simp [Html.backslash_not_mem_escape htitle, Html.backslash_not_mem_escape hid]
    have hinside : '\\' ∉ nested.nestedHtml := by
      unfold Items.nestedHtml Text.when
      split
      · simp [hnested hbelow]
      · exact List.not_mem_nil
    rw [Items.html_cons]
    simp [hlink, hinside, hrest hbehind]

theorem backslash_not_mem_render {entries : List Entry}
    (hentries : ∀ entry ∈ entries, '\\' ∉ entry.title ∧ '\\' ∉ entry.id) {options : Options}
    (h : options.Clean) {title? : Option Text}
    (htitle : ∀ title, title? = some title → '\\' ∉ title) :
    '\\' ∉ render entries options title? := by
  have hshown : '\\' ∉ title?.getD (Html.escape options.title) := by
    cases title? with
    | none => exact Html.backslash_not_mem_escape h.title
    | some title => exact htitle title rfl
  have hline : '\\' ∉ titleLine (title?.getD (Html.escape options.title)) := by
    unfold titleLine
    split
    · exact List.not_mem_nil
    · simp [hshown]
  obtain ⟨items, hitems, hrender⟩ := exists_items_render entries options title?
  have hlist : '\\' ∉ listHtml options items := by
    have hhtml : '\\' ∉ items.html := backslash_not_mem_items fun entry hentry =>
      hentries entry (List.mem_filter.1 (hitems ▸ hentry)).1
    unfold listHtml
    simp [Html.backslash_not_mem_escape h.listClass, hhtml]
  rw [hrender, Text.when]
  split
  · unfold framed
    simp [Html.backslash_not_mem_escape h.divClass, hline, hlist]
  · exact List.not_mem_nil

end Galley.Toc
