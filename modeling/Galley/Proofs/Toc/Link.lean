import Galley.Proofs.Toc.Nesting

/-!
# The links of a table of contents

The tags of a table of contents that lead somewhere are the links to the listed entries, one for each
entry and in the order of the entries. The table is a single element. The list in it is a tree of items:
each has the link to its entry, and may have the list of the items below it (`render_lists`).
-/

namespace Galley.Toc

open Html (NestsOnly Tagged escape isPlain tags? tags?_append tags?_of_isPlain)

/-! ## Tags that lead somewhere -/

def hasTarget (t : Html.Tag) : Bool := t.attributes.any (·.key = ("href" : Text))

def Entry.linkTag (entry : Entry) : Html.Tag := .start "a" [⟨"href", some ("#" ++ escape entry.id)⟩]

/-- The tags of the text that lead somewhere are the links to these entries, in order. -/
def Links (entries : List Entry) (html : Text) : Prop :=
  ∃ ts, tags? html = some ts ∧ ts.filter hasTarget = entries.map Entry.linkTag

namespace Links

variable {entries entries' : List Entry} {a b : Text}

theorem append (ha : Links entries a) (hb : Links entries' b) : Links (entries ++ entries') (a ++ b) := by
  obtain ⟨ts, hts, hlinks⟩ := ha
  obtain ⟨us, hus, hlinks'⟩ := hb
  refine ⟨ts ++ us, tags?_append hts hus, ?_⟩
  rw [List.filter_append, hlinks, hlinks', List.map_append]

theorem of_any (h : (tags? a).any (·.all (!hasTarget ·)) = true) : Links [] a := by
  obtain ⟨ts, hts, hall⟩ := (Option.any_eq_true _ _).1 h
  refine ⟨ts, hts, List.filter_eq_nil_iff.2 fun t ht => ?_⟩
  simpa using List.all_eq_true.1 hall t ht

theorem of_isPlain (h : isPlain a = true) : Links [] a := ⟨[], tags?_of_isPlain h, rfl⟩

theorem classTag (name value : Text) (hname : Html.Tag.isName name = true) :
    Links [] ("<" ++ name ++ " class=\"" ++ escape value ++ "\">\n") :=
  ⟨_, tags?_classTag name value hname, rfl⟩

theorem link (entry : Entry) : Links [entry] entry.link := ⟨_, tags?_link entry, rfl⟩

theorem items (items : Items) : Links items.entries items.html := by
  induction items with
  | nil => exact of_isPlain rfl
  | cons entry nested rest hnested hrest =>
    have hinside : Links nested.entries nested.nestedHtml := by
      cases nested with
      | nil => exact of_isPlain rfl
      | cons =>
        have hlist := ((of_any (a := "\n<ul>\n") (by decide)).append hnested).append
          (of_any (a := "</ul>\n") (by decide))
        rwa [List.append_nil] at hlist
    have hitem := (((link entry).append hinside).append (of_any (a := "</li>\n") (by decide))).append hrest
    rwa [List.append_nil] at hitem

theorem listHtml (options : Options) (items : Items) :
    Links items.entries (listHtml options items) := by
  have hlist := ((classTag "ul" options.listClass (by decide)).append (Links.items items)).append
    (of_any (a := "</ul>\n") (by decide))
  rwa [List.append_nil] at hlist

theorem titleLine {title : Text} (h : isPlain title = true) : Links [] (titleLine title) := by
  unfold Toc.titleLine
  split
  · exact of_isPlain rfl
  · exact ((of_any (a := "<h1>") (by decide)).append (of_isPlain h)).append (of_any (by decide))

theorem framed (options : Options) {titleHtml : Option Text} (h : titleHtml.all isPlain = true)
    (items : Items) : Links items.entries (framed options titleHtml (Toc.listHtml options items)) := by
  have htitle := titleLine (isPlain_shownTitle options h)
  have htable := (((classTag "div" options.divClass (by decide)).append htitle).append
    (listHtml options items)).append (of_any (a := "</div>\n") (by decide))
  rwa [List.append_nil] at htable

end Links

/-! ## The whole table -/

theorem links_render (entries : List Entry) (options : Options) {titleHtml : Option Text}
    (h : titleHtml.all isPlain = true) :
    Links (entries.filter (options.lists ·.level)) (render entries options titleHtml) := by
  obtain ⟨items, hentries, hrender⟩ := exists_items_render entries options titleHtml
  rw [← hentries, hrender, Text.when]
  cases items with
  | nil => exact Links.of_isPlain rfl
  | cons => exact Links.framed options h _

/-- Whether the links of the tag lead to entries. -/
def LinksTo (entries : List Entry) (t : Html.Tag) : Prop :=
  ∀ v, ⟨"href", some v⟩ ∈ t.attributes → ∃ entry ∈ entries, v = "#" ++ escape entry.id

theorem tagged_render (entries : List Entry) (options : Options) {titleHtml : Option Text}
    (h : titleHtml.all isPlain = true) : Tagged (LinksTo entries) (render entries options titleHtml) := by
  obtain ⟨ts, hts, hlinks⟩ := links_render entries options h
  refine ⟨ts, hts, fun t ht v hv => ?_⟩
  have hmem : t ∈ ts.filter hasTarget :=
    List.mem_filter.2 ⟨ht, List.any_eq_true.2 ⟨_, hv, rfl⟩⟩
  rw [hlinks] at hmem
  obtain ⟨entry, hentry, rfl⟩ := List.mem_map.1 hmem
  exact ⟨entry, (List.mem_filter.1 hentry).1, by simpa [Entry.linkTag] using hv⟩

theorem framed_ne_nil (options : Options) (titleHtml : Option Text) (list : Text) :
    framed options titleHtml list ≠ [] :=
  List.append_ne_nil_of_right_ne_nil _ (by decide)

/-- A table of contents is empty exactly if no entry lies within the bounds. Otherwise it is one
element, in which a list stands behind the title: the list is a tree of items, one for each entry within
the bounds and in their order, and the links to these entries are all that leads out of it. The elements
of the list are nested, and with a title that holds no tag so are those of the table. -/
theorem render_lists (entries : List Entry) (options : Options) (titleHtml : Option Text) :
    let listed := entries.filter (options.lists ·.level)
    (render entries options titleHtml = [] ↔ ∀ entry ∈ entries, options.lists entry.level = false) ∧
      ∃ items : Items, items.entries = listed ∧
        render entries options titleHtml =
          (if listed.isEmpty then [] else framed options titleHtml (listHtml options items)) ∧
        Links listed (listHtml options items) ∧
        NestsOnly ["ul", "li", "a"] (listHtml options items) ∧
        (titleHtml.all isPlain = true → ∃ inside,
          framed options titleHtml (listHtml options items) =
            "<div class=\"" ++ escape options.divClass ++ "\">" ++ inside ++ "</div>\n" ∧
          NestsOnly ["h1", "ul", "li", "a"] inside) := by
  intro listed
  obtain ⟨items, hentries, hrender⟩ := exists_items_render entries options titleHtml
  have hlisted : listed = items.entries := hentries.symm
  have hempty : items.isEmpty = listed.isEmpty := by
    rw [hlisted]
    cases items <;> rfl
  have hpage : render entries options titleHtml =
      if listed.isEmpty then [] else framed options titleHtml (listHtml options items) := by
    rw [hrender, Text.when, hempty]
    cases listed.isEmpty <;> rfl
  have hnone : listed.isEmpty = true ↔ ∀ entry ∈ entries, options.lists entry.level = false := by
    simp [listed, List.filter_eq_nil_iff]
  have hlinks : Links listed (listHtml options items) := hlisted ▸ Links.listHtml options items
  refine ⟨?_, items, hentries, hpage, hlinks, nestsOnly_listHtml options items, fun htitle => ?_⟩
  · rw [hpage, ← hnone]
    split
    · next h => exact iff_of_true rfl h
    · next h => exact iff_of_false (framed_ne_nil options titleHtml _) h
  · let line := titleLine (titleHtml.getD (escape options.title))
    refine ⟨"\n" ++ (line ++ listHtml options items), ?_, ?_⟩
    · have hstart : ("\">\n" : Text) = "\">" ++ "\n" := rfl
      unfold framed
      rw [hstart]
      simp only [List.append_assoc, line]
    · have hline : NestsOnly ["h1", "ul", "li", "a"] line :=
        (nestsOnly_titleLine (isPlain_shownTitle options htitle)).mono (by decide)
      have hlist : NestsOnly ["h1", "ul", "li", "a"] (listHtml options items) :=
        (nestsOnly_listHtml options items).mono (by decide)
      exact (NestsOnly.of_isPlain (by decide)).append (hline.append hlist)

/-- Headings that skip a level and come back to it, and one that lies out of bounds. -/
def skippedLevel : List Entry :=
  [⟨1, "A & B", "a-b"⟩, ⟨3, "C", "c"⟩, ⟨2, "D", "d"⟩, ⟨4, "E", "e"⟩, ⟨1, "F", "f"⟩]

theorem render_lists_skippedLevel :
    let listed : List Entry := [⟨1, "A & B", "a-b"⟩, ⟨3, "C", "c"⟩, ⟨2, "D", "d"⟩, ⟨1, "F", "f"⟩]
    (some "Contents".toList).all isPlain = true ∧
      ∃ items : Items, items.entries = listed ∧
        render skippedLevel {} (some "Contents") = framed {} (some "Contents") (listHtml {} items) ∧
        Links listed (listHtml {} items) ∧
        ∃ inside, framed {} (some "Contents") (listHtml {} items) =
            "<div class=\"mdv-table-of-contents toc\">" ++ inside ++ "</div>\n" ∧
          NestsOnly ["h1", "ul", "li", "a"] inside := by
  intro listed
  have htitle : (some "Contents".toList).all isPlain = true := by decide
  obtain ⟨-, items, hentries, hrender, hlinks, -, hinside⟩ :=
    render_lists skippedLevel {} (some "Contents")
  exact ⟨htitle, items, hentries, hrender, hlinks, hinside htitle⟩

end Galley.Toc
