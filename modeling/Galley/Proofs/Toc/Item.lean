import Galley.Toc.Outline

/-!
# The items of a table of contents

The writer keeps the levels of the open lists and closes lists as entries come. What it writes is a
tree: an item holds the link to its entry and, if deeper entries follow, the list of their items. Read
from top to bottom the tree has the listed entries in their order (`exists_items_render`). So what
holds of every item, whatever list is nested in it, holds of the table.
-/

namespace Galley.Toc

open Html (escape)

/-- The items of a list: the entry that the first one links to, the items of the list nested in it,
and the items that follow it. -/
inductive Items
  | nil
  | cons (entry : Entry) (nested rest : Items)

namespace Items

def isEmpty : Items → Bool
  | nil => true
  | cons .. => false

/-- The entries that the items link to, from top to bottom. -/
def entries : Items → List Entry
  | nil => []
  | cons entry nested rest => entry :: (nested.entries ++ rest.entries)

/-- The items as they are written; a list without items is left out. -/
def html : Items → Text
  | nil => []
  | cons entry nested rest =>
    "<li><a href=\"#" ++ escape entry.id ++ "\">" ++ escape entry.title ++ "</a>"
      ++ Text.when (!nested.isEmpty) ("\n<ul>\n" ++ nested.html ++ "</ul>\n")
      ++ "</li>\n" ++ rest.html

/-- What is written inside an item behind its link. -/
def nestedHtml (nested : Items) : Text :=
  Text.when (!nested.isEmpty) ("\n<ul>\n" ++ nested.html ++ "</ul>\n")

theorem html_nil : nil.html = [] := rfl

theorem html_cons (entry : Entry) (nested rest : Items) :
    (cons entry nested rest).html = entry.link ++ nested.nestedHtml ++ "</li>\n" ++ rest.html := rfl

theorem nestedHtml_nil : nil.nestedHtml = [] := rfl

theorem nestedHtml_cons (entry : Entry) (nested rest : Items) :
    (cons entry nested rest).nestedHtml = "\n<ul>\n" ++ (cons entry nested rest).html ++ "</ul>\n" := rfl

end Items

/-! ## What the writer has left to write -/

/-- The items that follow in the innermost open list, and in the lists around it, with the ends of
the lists between them. -/
def following (items : Items) : List Items → Text
  | [] => items.html
  | outer :: rest => items.html ++ closeList ++ following outer rest

theorem following_cons_html (entry : Entry) (nested rest : Items) (outer : List Items) :
    following (.cons entry nested rest) outer =
      entry.link ++ nested.nestedHtml ++ "</li>\n" ++ following rest outer := by
  cases outer <;> simp only [following, Items.html_cons, List.append_assoc]

theorem exists_closeLists_eq (level current : Nat) (rest : List Nat) :
    ∃ closed current' rest', rest.length = closed + rest'.length ∧
      closeLists level (current :: rest) =
        ((List.replicate closed closeList).flatten, current' :: rest') := by
  induction rest generalizing current with
  | nil => exact ⟨0, current, [], rfl, rfl⟩
  | cons parent rest ih =>
    rw [closeLists]
    split
    · exact ⟨0, current, parent :: rest, (Nat.zero_add _).symm, rfl⟩
    · split
      · exact ⟨0, level, parent :: rest, (Nat.zero_add _).symm, rfl⟩
      · obtain ⟨closed, current', rest', hlength, hclose⟩ := ih parent
        refine ⟨closed + 1, current', rest', ?_, ?_⟩
        · rw [List.length_cons, hlength]
          omega
        · rw [hclose]
          rfl

theorem exists_following_eq (closed : Nat) (items : Items) (outer : List Items) :
    ∃ items' outer', outer'.length = closed + outer.length ∧
      following items' outer' =
        (List.replicate closed closeList).flatten ++ following items outer ∧
      items'.entries ++ outer'.flatMap Items.entries =
        items.entries ++ outer.flatMap Items.entries := by
  induction closed with
  | zero => exact ⟨items, outer, (Nat.zero_add _).symm, rfl, rfl⟩
  | succ closed ih =>
    obtain ⟨items', outer', hlength, hfollowing, hentries⟩ := ih
    refine ⟨.nil, items' :: outer', ?_, ?_, ?_⟩
    · rw [List.length_cons, hlength]
      omega
    · show closeList ++ following items' outer' = _
      rw [hfollowing, List.replicate_succ, List.flatten_cons, List.append_assoc]
    · rw [List.flatMap_cons, hentries]
      rfl

theorem items_cons (options : Options) (opened : List Nat) (entry : Entry) (entries : List Entry) :
    items options opened (entry :: entries) =
      (openItem options entry.level opened).1 ++ entry.link
        ++ items options (openItem options entry.level opened).2 entries := rfl

/-- What is written behind the link of an open item: the list nested in it, then what follows in each
of the open lists. -/
theorem exists_items_behind (options : Options) (current : Nat) (rest : List Nat)
    (entries : List Entry) :
    ∃ (nested items : Items) (outer : List Items), outer.length = rest.length ∧
      Toc.items options (current :: rest) entries =
        nested.nestedHtml ++ "</li>\n" ++ following items outer ∧
      nested.entries ++ (items.entries ++ outer.flatMap Items.entries) = entries := by
  induction entries generalizing current rest with
  | nil =>
    obtain ⟨items, outer, hlength, hfollowing, hentries⟩ := exists_following_eq rest.length .nil []
    refine ⟨.nil, items, outer, by simpa using hlength, ?_, ?_⟩
    · have hclose : Toc.items options (current :: rest) [] =
          "</li>\n".toList ++ (List.replicate rest.length closeList).flatten := rfl
      simp only [hclose, hfollowing, following, Items.nestedHtml_nil, Items.html_nil,
        List.nil_append, List.append_nil]
    · simpa [Items.entries] using hentries
  | cons entry entries ih =>
    rw [items_cons]
    by_cases hdeeper : current < entry.level
    · -- the entry is the first item of a list nested in the open item
      have hopen : openItem options entry.level (current :: rest) =
          ("\n<ul>\n".toList, entry.level :: current :: rest) := if_pos hdeeper
      obtain ⟨nested, items, outer, hlength, hitems, hentries⟩ := ih entry.level (current :: rest)
      cases outer with
      | nil => cases hlength
      | cons next outer =>
        refine ⟨.cons entry nested items, next, outer, by simpa using hlength, ?_, ?_⟩
        · have hclose : closeList = "</ul>\n".toList ++ "</li>\n".toList := rfl
          simp only [hopen, hitems, following, Items.nestedHtml_cons, Items.html_cons, hclose,
            List.append_assoc]
        · rw [← hentries]
          simp [Items.entries]
    · -- the open item has no list, and the entry is the next item of a list that is left open
      obtain ⟨closed, current', rest', hrest, hclose⟩ := exists_closeLists_eq entry.level current rest
      have hopen : openItem options entry.level (current :: rest) =
          ("</li>\n".toList ++ (List.replicate closed closeList).flatten, current' :: rest') := by
        show (if _ then _ else _) = _
        rw [if_neg hdeeper, hclose]
      obtain ⟨nested, items, outer, hlength, hitems, hentries⟩ := ih current' rest'
      obtain ⟨items', outer', hlength', hfollowing, hentries'⟩ :=
        exists_following_eq closed (.cons entry nested items) outer
      refine ⟨.nil, items', outer', by omega, ?_, ?_⟩
      · simp only [hopen, hitems, hfollowing, following_cons_html, Items.nestedHtml_nil,
          List.nil_append, List.append_assoc]
      · rw [Items.entries, List.nil_append, hentries', ← hentries]
        simp [Items.entries]

/-! ## The whole table -/

/-- The outermost list. -/
def listHtml (options : Options) (items : Items) : Text :=
  "<ul class=\"" ++ escape options.listClass ++ "\">\n" ++ items.html ++ "</ul>\n"

/-- The list of some entries, in a table of contents with the options and perhaps a title of its own. -/
def framed (options : Options) (titleHtml : Option Text) (list : Text) : Text :=
  "<div class=\"" ++ escape options.divClass ++ "\">\n"
    ++ titleLine (titleHtml.getD (escape options.title)) ++ list ++ "</div>\n"

theorem render_eq (entries : List Entry) (options : Options) (titleHtml : Option Text)
    {listed : List Entry} (h : entries.filter (options.lists ·.level) = listed) :
    render entries options titleHtml =
      if listed.isEmpty then []
      else framed options titleHtml (Toc.items options [] listed ++ "</ul>\n") := by
  have hend : ("</ul>\n</div>\n" : Text) = "</ul>\n" ++ "</div>\n" := rfl
  subst h
  unfold render framed
  rw [hend]
  simp only [List.append_assoc]

/-- A table of contents is written from a tree of items that has the entries within the bounds. -/
theorem exists_items_render (entries : List Entry) (options : Options) (titleHtml : Option Text) :
    ∃ items : Items, items.entries = entries.filter (options.lists ·.level) ∧
      render entries options titleHtml =
        Text.when (!items.isEmpty) (framed options titleHtml (listHtml options items)) := by
  cases hlisted : entries.filter (options.lists ·.level) with
  | nil => exact ⟨.nil, rfl, render_eq entries options titleHtml hlisted⟩
  | cons first rest =>
    obtain ⟨nested, items, outer, hlength, hitems, hentries⟩ :=
      exists_items_behind options first.level [] rest
    obtain rfl := List.length_eq_zero_iff.1 hlength
    refine ⟨.cons first nested items, ?_, ?_⟩
    · rw [← hentries]
      simp [Items.entries]
    · have hopen : openItem options first.level [] =
          ("<ul class=\"" ++ escape options.listClass ++ "\">\n", [first.level]) := rfl
      have hlist : Toc.items options [] (first :: rest) ++ "</ul>\n" =
          listHtml options (.cons first nested items) := by
        unfold listHtml
        rw [items_cons, hopen]
        dsimp only
        rw [hitems, Items.html_cons, following]
        simp only [List.append_assoc]
      exact hlist ▸ render_eq entries options titleHtml hlisted

end Galley.Toc
