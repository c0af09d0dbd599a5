import Galley.Document.Slides
import Galley.Proofs.Render.BackLink
import Galley.Proofs.Render.ShownText

/-!
# Links back in the last paragraph

A note that was referenced ends with a link back to its reference. Two replacements in the page move
the link into the last paragraph of the note: the first takes away the end of a paragraph before a
link, the second puts one behind every link. They find the same links only if each of these notes
ends with a paragraph, and they are taken in by a link of the document itself that goes to a
reference. Without both the page stays nested (`isNested_joinBackReferences`).

The items of the notes have three forms, before, between and behind the two replacements, which
differ only in the link (`itemsWith`). `Turns` says what both replacements have in common.
-/

namespace Galley.Markdown

def Event.referencedLabel? : Event → Option Text
  | .footnoteReference label => some label
  | _ => none

end Galley.Markdown

namespace Galley.Render

open Html (Balanced Follows Walk tags?)
open Markdown (Event Forest)
open Text (replaceFrom)

namespace Footnotes

/-! ## Items and their links -/

/-- The link back as it stands in the last paragraph, with the end of the paragraph. -/
def joinedReference (n : Nat) : Text :=
  "<a href=\"#fnref-" ++ Text.ofNat n ++ "\" class=\"footnote-backref\"> &#8617;</a></p>\n"

/-- The text of a note without the end of its last paragraph. -/
def openBody (body : Text) : Text := (Text.dropSuffix? "</p>\n" body).getD body

/-- The item of a note; if the note was referenced, `link` is put where its last paragraph ends. -/
def itemWith (link : Nat → Text) (n : Nat) (note : Note) : Text :=
  match note.body with
  | none => []
  | some body =>
    "<li id=\"fn-" ++ Text.ofNat n ++ "\">\n"
      ++ (if note.referenced then openBody body ++ link n else body) ++ "</li>\n"

def itemsWith (link : Nat → Text) (n : Nat) : List Note → Text
  | [] => []
  | note :: notes => itemWith link n note ++ itemsWith link (n + 1) notes

/-- The text of the note is nested and has no links back; if the note was referenced, its text ends
with a paragraph. -/
inductive Joins (note : Note) : Prop
  | undefined (hbody : note.body = none)
  | unreferenced {body : Text} (hbody : note.body = some body) (hreferenced : note.referenced = false)
      (hunlinked : Html.Unlinked body) (hbalanced : Balanced body)
  | referenced {u : Text} (hbody : note.body = some (u ++ "</p>\n"))
      (hreferenced : note.referenced = true) (hunlinked : Html.Unlinked u)
      (hbalanced : Balanced (u ++ "</p>\n"))

section items

variable {note : Note} {notes : List Note}

theorem itemWith_undefined (hbody : note.body = none) (link : Nat → Text) (n : Nat) :
    itemWith link n note = [] := by
  unfold itemWith
  rw [hbody]

theorem itemWith_unreferenced {body : Text} (hbody : note.body = some body)
    (hreferenced : note.referenced = false) (link : Nat → Text) (n : Nat) :
    itemWith link n note = "<li id=\"fn-" ++ Text.ofNat n ++ "\">\n" ++ body ++ "</li>\n" := by
  unfold itemWith
  rw [hbody, hreferenced]
  rfl

theorem itemWith_referenced {u : Text} (hbody : note.body = some (u ++ "</p>\n"))
    (hreferenced : note.referenced = true) (link : Nat → Text) (n : Nat) :
    itemWith link n note = "<li id=\"fn-" ++ Text.ofNat n ++ "\">\n" ++ (u ++ link n) ++ "</li>\n" := by
  have hopen : openBody (u ++ "</p>\n") = u := by
    unfold openBody
    rw [Text.dropSuffix?_eq_some_iff.2 rfl]
    rfl
  unfold itemWith
  rw [hbody, hreferenced]
  show _ ++ (openBody (u ++ _) ++ _) ++ _ = _
  rw [hopen]

theorem item_eq (h : Joins note) (n : Nat) :
    Note.item n note = itemWith (fun n => "</p>\n" ++ backReference n) n note := by
  unfold Note.item
  cases h with
  | undefined hbody => rw [hbody, itemWith_undefined hbody]
  | unreferenced hbody hreferenced =>
    rw [hbody, hreferenced, itemWith_unreferenced hbody hreferenced]
    show _ ++ [] ++ _ = _
    rw [List.append_nil]
  | @referenced u hbody hreferenced =>
    rw [hbody, hreferenced, itemWith_referenced hbody hreferenced]
    show _ ++ (u ++ _) ++ backReference n ++ _ = _
    simp only [List.append_assoc]

theorem items_eq (h : ∀ note ∈ notes, Joins note) (n : Nat) :
    items n notes = itemsWith (fun n => "</p>\n" ++ backReference n) n notes := by
  induction notes generalizing n with
  | nil => rfl
  | cons note notes ih =>
    rw [List.forall_mem_cons] at h
    rw [items, itemsWith, item_eq h.1, ih h.2]

end items

/-! ## The two replacements -/

/-- Replacing `p` by `r` leaves texts without links back as they are and turns `link` into
`link'`. -/
structure Turns (p r : Text) (link link' : Nat → Text) : Prop where
  keeps : ∀ {u s : Text}, Html.Unlinked u → Follows s →
    replaceFrom p r 0 (u ++ s) = u ++ replaceFrom p r 0 s
  turns : ∀ {u s : Text} (n : Nat), Html.Unlinked u → Follows s →
    replaceFrom p r 0 (u ++ (link n ++ ("</li>\n" ++ s))) =
      u ++ (link' n ++ ("</li>\n" ++ replaceFrom p r 0 s))

/-- The first replacement takes away the end of a paragraph before a link. -/
theorem turns_start : Turns "</p>\n<a href=\"#fnref-" "<a href=\"#fnref-"
    (fun n => "</p>\n" ++ backReference n) backReference where
  keeps := fun hu hs => hu.replace_start hs
  turns := by
    intro u s n hu hs
    have hpattern : "</p>\n<a href=\"#fnref-".toList =
        "</p>\n".toList ++ "<a href=\"#fnref-".toList := by decide
    have hrest : "\" class=\"footnote-backref\">&#8617;</a>\n".toList =
        "\" class=\"footnote-backref\">&#8617;".toList ++ "</a>\n".toList := by decide
    have hlink : ∀ t : Text, backReference n ++ ("</li>\n" ++ t) =
        "<a href=\"#fnref-" ++ (Text.ofNat n ++ "\" class=\"footnote-backref\">&#8617;" ++
          ("</a>\n" ++ "</li>\n" ++ t)) := by
      intro t
      unfold backReference
      rw [hrest]
      simp only [List.append_assoc]
    have hstart : ("</p>\n" ++ backReference n) ++ ("</li>\n" ++ s) =
        "</p>\n<a href=\"#fnref-" ++ (Text.ofNat n ++ "\" class=\"footnote-backref\">&#8617;" ++
          ("</a>\n" ++ "</li>\n" ++ s)) := by
      rw [List.append_assoc, hlink, hpattern]
      simp only [List.append_assoc]
    have hnot : '<' ∉ Text.ofNat n ++ "\" class=\"footnote-backref\">&#8617;" := by
      rw [List.mem_append, not_or]
      exact ⟨Text.not_mem_ofNat (by decide) n, by decide⟩
    have hitem : Html.Unlinked ("</a>\n" ++ "</li>\n") := .of_any (by decide)
    have hfollows := Follows.of_append (w := "</p>\n<a href=\"#fnref-") (c := '/') (by decide)
      (by decide)
    -- the replacement ends inside the link, and the search goes on behind its number
    rw [hstart, hu.replace_start (hfollows _), Html.replaceFrom_self (by decide),
      Html.replaceFrom_of_not_mem (c := '<') (by decide) hnot, hitem.replace_start hs, hlink]

/-- The second replacement puts the end of a paragraph behind a link. -/
theorem turns_end : Turns "class=\"footnote-backref\">&#8617;</a>"
    "class=\"footnote-backref\"> &#8617;</a></p>" backReference joinedReference where
  keeps := fun hu hs => hu.replace_end hs.exists_cons
  turns := by
    intro u s n hu hs
    have hstart : "<a href=\"#fnref-".toList = '<' :: "a href=\"#fnref-" := by decide
    have hback : "\" class=\"footnote-backref\">&#8617;</a>\n".toList =
        "\" ".toList ++ "class=\"footnote-backref\">&#8617;</a>".toList ++ "\n".toList := by decide
    have hjoined : "\" class=\"footnote-backref\"> &#8617;</a></p>\n".toList =
        "\" ".toList ++ "class=\"footnote-backref\"> &#8617;</a></p>".toList ++ "\n".toList := by decide
    have hlink : ∀ t : Text, backReference n ++ ("</li>\n" ++ t) =
        '<' :: ("a href=\"#fnref-" ++ Text.ofNat n ++ "\" ") ++
          ("class=\"footnote-backref\">&#8617;</a>" ++ ("\n" ++ "</li>\n" ++ t)) := by
      intro t
      unfold backReference
      rw [hback, hstart]
      simp only [List.append_assoc, List.cons_append]
    have hlink' : ∀ t : Text, joinedReference n ++ ("</li>\n" ++ t) =
        '<' :: ("a href=\"#fnref-" ++ Text.ofNat n ++ "\" ") ++
          ("class=\"footnote-backref\"> &#8617;</a></p>" ++ ("\n" ++ "</li>\n" ++ t)) := by
      intro t
      unfold joinedReference
      rw [hjoined, hstart]
      simp only [List.append_assoc, List.cons_append]
    have hnot : 'c' ∉ '<' :: ("a href=\"#fnref-" ++ Text.ofNat n ++ "\" ") := by
      rw [List.mem_cons, List.mem_append, List.mem_append, not_or, not_or, not_or]
      exact ⟨by decide, ⟨by decide, Text.not_mem_ofNat (by decide) n⟩, by decide⟩
    have hitem : Html.Unlinked ("\n" ++ "</li>\n") := .of_any (by decide)
    -- before the number of the link there is no character that the pattern starts with
    rw [hlink, hu.replace_end (.inr ⟨_, List.cons_append⟩),
      Html.replaceFrom_of_not_mem (c := 'c') (by decide) hnot, Html.replaceFrom_self (by decide),
      hitem.replace_end hs.exists_cons, hlink']

section items

variable {p r s u : Text} {link link' : Nat → Text} {notes : List Note}

theorem unlinked_itemStart (n : Nat) : Html.Unlinked ("<li id=\"fn-" ++ Text.ofNat n ++ "\">\n") := by
  refine .of_start (tags?_itemStart n) ?_
  rw [List.any_cons, Html.Attribute.isBackLink_of_key (by decide)]
  rfl

theorem follows_items (hs : Follows s) (n : Nat) : Follows (itemsWith link n notes ++ s) := by
  induction notes generalizing n with
  | nil => exact hs
  | cons note notes ih =>
    rw [itemsWith, itemWith]
    cases note.body with
    | none => exact ih (n + 1)
    | some body =>
      simp only [List.append_assoc]
      exact Follows.of_append (c := 'l') (by decide) (by decide) _

theorem Turns.item (h : Turns p r link link') {note : Note} (hnote : Joins note) (hs : Follows s)
    (n : Nat) : replaceFrom p r 0 (itemWith link n note ++ s) =
      itemWith link' n note ++ replaceFrom p r 0 s := by
  have hstart := unlinked_itemStart n
  cases hnote with
  | undefined hbody =>
    rw [itemWith_undefined hbody, itemWith_undefined hbody]
    rfl
  | unreferenced hbody hreferenced hunlinked =>
    have hstop : Html.Unlinked "</li>\n" := .of_any (by decide)
    rw [itemWith_unreferenced hbody hreferenced, itemWith_unreferenced hbody hreferenced]
    exact h.keeps ((hstart.append hunlinked).append hstop) hs
  | referenced hbody hreferenced hunlinked =>
    have hitem := h.turns n (hstart.append hunlinked) hs
    rw [itemWith_referenced hbody hreferenced, itemWith_referenced hbody hreferenced]
    simpa only [List.append_assoc] using hitem

theorem Turns.items (h : Turns p r link link') (hnotes : ∀ note ∈ notes, Joins note)
    (hs : Follows s) (n : Nat) : replaceFrom p r 0 (itemsWith link n notes ++ s) =
      itemsWith link' n notes ++ replaceFrom p r 0 s := by
  induction notes generalizing n with
  | nil => rfl
  | cons note notes ih =>
    rw [List.forall_mem_cons] at hnotes
    rw [itemsWith, itemsWith, List.append_assoc, h.item hnotes.1 (follows_items hs (n + 1)),
      ih hnotes.2, List.append_assoc]

theorem Turns.page (h : Turns p r link link') (hnotes : ∀ note ∈ notes, Joins note)
    (hu : Html.Unlinked u) : Text.replace p r (u ++ (itemsWith link 1 notes ++ "</ol>\n</div>\n")) =
      u ++ (itemsWith link' 1 notes ++ "</ol>\n</div>\n") := by
  have hend : Follows "</ol>\n</div>\n" :=
    Follows.of_append (w := "</ol>\n</div>\n") (c := '/') (by decide) (by decide) []
  have htail : Html.Unlinked "</ol>\n</div>\n" := .of_any (by decide)
  have hkept := h.keeps htail (.inl rfl)
  rw [List.append_nil] at hkept
  rw [Text.replace, h.keeps hu (follows_items hend 1), h.items hnotes hend, hkept]
  rfl

end items

/-! ## The items stay nested -/

theorem tags?_joinedReference (n : Nat) :
    tags? (joinedReference n) = some [backTag n, .stop "a", .stop "p"] := by
  have hparts : joinedReference n =
      "<a href=\"#fnref-" ++ Text.ofNat n ++ "\" class=\"footnote-backref\">" ++
        " &#8617;</a></p>\n" := by
    unfold joinedReference
    simp
  have hstop : tags? " &#8617;</a></p>\n" = some [.stop "a", .stop "p"] := by decide
  rw [hparts]
  exact Html.tags?_append (tags?_backStart n) hstop

theorem walk_joinedReference (n : Nat) (s : List Text) : Walk (joinedReference n) ("p" :: s) s := by
  refine Walk.of_tags (tags?_joinedReference n) ?_
  rw [Html.openAfter?_start (by decide), Html.openAfter?_stop]
  exact Html.openAfter?_stop "p" [] s

theorem balanced_joinedItem {note : Note} (h : Joins note) (n : Nat) :
    Balanced (itemWith joinedReference n note) := by
  intro s
  have hstart := Walk.start (tags?_itemStart n) (by decide) s
  have hstop : tags? "</li>\n" = some [.stop "li"] := by decide
  cases h with
  | undefined hbody =>
    rw [itemWith_undefined hbody]
    exact Balanced.nil s
  | unreferenced hbody hreferenced _ hbalanced =>
    rw [itemWith_unreferenced hbody hreferenced]
    exact (hstart.append (hbalanced _)).append (Walk.stop hstop s)
  | referenced hbody hreferenced hunlinked hbalanced =>
    obtain ⟨ts, hts, -⟩ := hunlinked
    have hparagraph : tags? "</p>\n" = some [.stop "p"] := by decide
    have hinner := (hbalanced ("li" :: s)).of_append_stop hts hparagraph
    rw [itemWith_referenced hbody hreferenced]
    exact (hstart.append (hinner.append (walk_joinedReference n _))).append (Walk.stop hstop s)

theorem balanced_joinedItems {notes : List Note} (h : ∀ note ∈ notes, Joins note) (n : Nat) :
    Balanced (itemsWith joinedReference n notes) := by
  induction notes generalizing n with
  | nil => exact Balanced.nil
  | cons note notes ih =>
    rw [List.forall_mem_cons] at h
    exact (balanced_joinedItem h.1 n).append (ih h.2 (n + 1))

end Footnotes

/-! ## The notes of a document -/

/-- A note is referenced only if its label is one of `strict`, and then its text ends with a
paragraph. -/
structure Note.Ends (strict : List Text) (note : Note) : Prop where
  referenced : note.referenced = true → note.label ∈ strict
  body : note.label ∈ strict → ∀ body, note.body = some body →
    ∃ u, Html.Unlinked u ∧ body = u ++ "</p>\n"

namespace Note.Ends

variable {strict : List Text}

theorem fresh (label : Text) : Note.Ends strict { label } where
  referenced := fun href => by cases href
  body := fun _ _ hbody => by cases hbody

theorem joins {note : Note} (h : note.Ends strict)
    (hunlinked : ∀ body, note.body = some body → Html.Unlinked body)
    (hbalanced : ∀ body, note.body = some body → Balanced body) : Footnotes.Joins note := by
  cases hbody : note.body with
  | none => exact .undefined hbody
  | some body =>
    cases hreferenced : note.referenced with
    | false => exact .unreferenced hbody hreferenced (hunlinked body hbody) (hbalanced body hbody)
    | true =>
      obtain ⟨u, hu, rfl⟩ := h.body (h.referenced hreferenced) body hbody
      exact .referenced hbody hreferenced hu (hbalanced _ hbody)

end Note.Ends

theorem InTurn.notes_end {strict : List Text} {es : List (Event × Option Nat)} {opened : Option Text}
    (h : InTurn strict es opened)
    (hreferences : ∀ e ∈ es, ∀ label, e.1 = .footnoteReference label → label ∈ strict)
    (hes : ∀ e ∈ es, e.1.isRaw = false ∧ e.1.linksToReference = false) :
    ∀ note ∈ (({} : Renderer).steps es).footnotes.notes, note.Ends strict := by
  induction h with
  | nil => exact fun _ hnote => absurd hnote List.not_mem_nil
  | start h label line ih =>
    rw [List.forall_mem_append] at hreferences hes
    rw [Renderer.steps_concat]
    exact Footnotes.forall_know (ih hreferences.1 hes.1) (.fresh label)
  | @stop es label h hend line ih =>
    rw [List.forall_mem_append] at hreferences hes
    have hnotes := ih hreferences.1 hes.1
    obtain ⟨hcurrent, hsaved⟩ := h.current_and_saved
    obtain ⟨page, hpage⟩ := Option.isSome_iff_exists.1 hsaved
    rw [Renderer.steps_concat]
    show ∀ note ∈ (Renderer.endFootnote _).footnotes.notes, _
    rw [Renderer.endFootnote_eq hcurrent hpage]
    refine Footnotes.forall_endDefinition hnotes fun other hother => ⟨.fresh other, ?_⟩
    rw [hcurrent] at hother
    obtain rfl := Option.some.inj hother
    intro note hlabel hnote
    refine ⟨hnote.referenced, fun hstrict body hbody => ?_⟩
    obtain rfl := Option.some.inj hbody
    -- the definition was read up to the end of a paragraph, which is the last that was written
    obtain ⟨line', es', rfl⟩ := hend (hlabel ▸ hstrict)
    rw [List.forall_mem_append] at hes
    refine ⟨_, (Renderer.Unlinked.fresh.steps hes.1.1).output, ?_⟩
    rw [Renderer.steps_concat]
    rfl
  | @other es opened e h he line ih =>
    rw [List.forall_mem_append] at hreferences hes
    have hnotes := ih hreferences.1 hes.1
    have hne : e ≠ .stop .footnoteDefinition := by
      rintro rfl
      cases he
    rw [Renderer.steps_concat, Renderer.footnotes_step _ hne]
    unfold Footnotes.after
    split
    · next label =>
      have hlabel : label ∈ strict := hreferences.2 _ List.mem_cons_self label rfl
      refine Footnotes.forall_refer hnotes (.fresh label) fun note hnote hends => ?_
      exact ⟨fun _ => hnote ▸ hlabel, hends.body⟩
    · cases he
    · exact hnotes

end Galley.Render

namespace Galley.Document

open Html (Walk)
open Markdown (Forest)
open Render (Footnotes Renderer)

theorem walk_joinBackReferences {u : Text} {fs : Footnotes} (hu : Html.Unlinked u)
    (hwalk : Walk u [] []) (hsound : fs.Sound) (hnotes : ∀ note ∈ fs.notes, Footnotes.Joins note) :
    Walk (joinBackReferences (u ++ fs.sectionHtml)) [] [] := by
  unfold joinBackReferences
  split
  · unfold Footnotes.sectionHtml
    split
    · have hstart := Footnotes.turns_start.keeps hu (.inl rfl)
      have hend := Footnotes.turns_end.keeps hu (.inl rfl)
      rw [Text.replace, Text.replace, hstart]
      show Walk (Text.replaceFrom _ _ 0 (u ++ [])) [] []
      rw [hend]
      exact hwalk.append (Html.Balanced.nil [])
    · have hsection : Html.Unlinked "<div class=\"footnotes\">\n<hr class=\"footnotes-sep\" />\n<ol>\n" :=
        .of_any (by decide)
      have hpage := hu.append hsection
      rw [Footnotes.items_eq hnotes, List.append_assoc, ← List.append_assoc u,
        Footnotes.turns_start.page hnotes hpage, Footnotes.turns_end.page hnotes hpage,
        List.append_assoc, ← List.append_assoc _ _ "</ol>\n</div>\n".toList]
      exact hwalk.append (Renderer.balanced_section (Footnotes.balanced_joinedItems hnotes 1) [])
  · exact hwalk.append (Renderer.balanced_sectionHtml hsound [])

/-- Joining the links back into the last paragraphs of their notes keeps a page nested, if every
footnote that is referenced ends with a paragraph and no link of the document itself goes to a
reference, to an address that starts with `#fnref-`. -/
theorem isNested_joinBackReferences (options : Toc.Options) (lineOf? : Option (Nat → Nat))
    {f : Forest} (hfits : f.fits .blocks = true) (hapart : f.notesApart false = true)
    (hraw : ∀ e ∈ f.events, e.isRaw = false) (hlinks : ∀ e ∈ f.events, e.linksToReference = false)
    (hends : f.notesEndInParagraph (f.events.filterMap (·.referencedLabel?)) = true) :
    Html.isNested (joinBackReferences
      (({} : Renderer).renderLocated options lineOf? f.located).1.html) = true := by
  have hmarkers : ∀ e ∈ f.events, e.OnlyMarkers :=
    fun e he => Markdown.Event.onlyMarkers_of_isRaw (hraw e he)
  obtain ⟨hwalk, hsound⟩ := Renderer.walk_output lineOf? hfits hapart hmarkers
  have hturn : Render.InTurn _ ([] ++ Renderer.lined lineOf? f) none :=
    Render.inTurn_lined lineOf? hfits hapart hends .nil
  rw [List.nil_append] at hturn
  have hmem : ∀ e ∈ Renderer.lined lineOf? f, e.1 ∈ f.events := by
    intro e he
    rw [← Renderer.map_fst_lined lineOf? f]
    exact List.mem_map_of_mem he
  have hes : ∀ e ∈ Renderer.lined lineOf? f, e.1.isRaw = false ∧ e.1.linksToReference = false :=
    fun e he => ⟨hraw e.1 (hmem e he), hlinks e.1 (hmem e he)⟩
  have hreferences : ∀ e ∈ Renderer.lined lineOf? f, ∀ label, e.1 = .footnoteReference label →
      label ∈ f.events.filterMap (·.referencedLabel?) := by
    intro e he label hlabel
    exact List.mem_filterMap.2 ⟨e.1, hmem e he, by rw [hlabel]; rfl⟩
  have hunlinked := Renderer.Unlinked.fresh.steps hes
  have hnotes := hturn.notes_end hreferences hes
  rw [Renderer.html_renderLocated options lineOf? hraw]
  exact Html.isNested_of_walk (walk_joinBackReferences hunlinked.output hwalk hsound.notes
    fun note hnote => (hnotes note hnote).joins (hunlinked.notes note hnote) (hsound.notes note hnote))

/-- A footnote that is referenced, whose definition holds a list and a paragraph, and one that is
not, whose definition ends with a code block. -/
def listThenParagraph : Forest :=
  .element .paragraph 0 20
    (.leaf (.text "x") 0 <| .leaf (.footnoteReference "n") 1 <|
      .element (.link "#n" "") 5 9 (.leaf (.text "y") 6 .nil) .nil) <|
  .element (.footnoteDefinition "n") 22 50
    (.element (.list none) 26 40
      (.element .item 28 40 (.leaf (.text "z") 30 .nil) .nil) <|
      .element .paragraph 42 50 (.leaf (.text "q") 42 .nil) .nil) <|
  .element (.footnoteDefinition "m") 52 80
    (.element (.codeBlock none) 56 80 (.leaf (.text "c") 60 .nil) .nil) .nil

theorem isNested_joinBackReferences_listThenParagraph :
    listThenParagraph.fits .blocks = true ∧ listThenParagraph.notesApart false = true ∧
      (∀ e ∈ listThenParagraph.events, e.isRaw = false) ∧
      (∀ e ∈ listThenParagraph.events, e.linksToReference = false) ∧
      listThenParagraph.notesEndInParagraph
        (listThenParagraph.events.filterMap (·.referencedLabel?)) = true ∧
      Html.isNested (joinBackReferences
        (({} : Renderer).renderLocated {} none listThenParagraph.located).1.html) = true := by
  have hfits : listThenParagraph.fits .blocks = true := by decide
  have hapart : listThenParagraph.notesApart false = true := by decide
  have hraw : ∀ e ∈ listThenParagraph.events, e.isRaw = false := by decide
  have hlinks : ∀ e ∈ listThenParagraph.events, e.linksToReference = false := by decide
  have hends : listThenParagraph.notesEndInParagraph
      (listThenParagraph.events.filterMap (·.referencedLabel?)) = true := by decide
  exact ⟨hfits, hapart, hraw, hlinks, hends,
    isNested_joinBackReferences {} none hfits hapart hraw hlinks hends⟩

/-- A footnote that is referenced and whose definition is a block quote. -/
def quotedNote : Forest :=
  .element .paragraph 0 5 (.leaf (.text "x") 0 <| .leaf (.footnoteReference "1") 1 .nil) <|
  .element (.footnoteDefinition "1") 7 17
    (.element (.blockQuote none) 13 17
      (.element .paragraph 15 16 (.leaf (.text "q") 15 .nil) .nil) .nil) .nil

/-- Behind a block quote the link back gets the end of a paragraph that is not open. -/
theorem not_isNested_joinBackReferences_quotedNote :
    quotedNote.fits .blocks = true ∧ quotedNote.notesApart false = true ∧
      (∀ e ∈ quotedNote.events, e.isRaw = false) ∧
      Html.isNested (joinBackReferences
        (({} : Renderer).renderLocated {} none quotedNote.located).1.html) = false := by
  refine ⟨by decide, by decide, by decide, by decide +kernel⟩

end Galley.Document
