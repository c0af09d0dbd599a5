import Galley.Proofs.Toc.Nesting

/-!
# The outline of a table of contents

`places?` reads the list of a table of contents back: where each link leads, and in whose nested
list its item stands. The level that the writer keeps of an open list is that of its last item, but
of the outermost list it keeps the level of the first entry. So an entry that is deeper than the
first one stands under the last entry before it that is shallower, and every other entry stands in
the outermost list (`places_render`).
-/

namespace Galley.Toc

open Html (escape tags? tags?_append)

/-! ## Reading a list -/

/-- Where the link of an item leads, and where its item stands. -/
structure Place where
  /-- The number of the item among all items. -/
  item : Nat
  target : Text
  /-- The item in whose nested list the item stands; the outermost list is in none. -/
  outer : Option Nat
deriving DecidableEq, Repr

/-- An element that is open while a list is read. -/
inductive OpenElement
  | list
  | item (number : Nat)
deriving DecidableEq, Repr

/-- The number of the innermost open element if that is an item. -/
def holder? : List OpenElement → Option Nat
  | .item number :: _ => some number
  | _ => none

/-- What is known of a list while it is read. -/
structure Outline where
  /-- The open elements, the innermost first. -/
  opened : List OpenElement := []
  /-- The number of items so far. -/
  count : Nat := 0
  places : List Place := []
deriving DecidableEq, Repr

namespace Outline

/-- Where the link of a tag leads if that is all the tag says. -/
def target? : List Html.Attribute → Option Text
  | [⟨key, value⟩] => if key = ("href" : Text) then value else none
  | _ => none

/-- Reads a tag: a list stands in an item unless it is the outermost, an item stands in a list, and
a link stands in an item. -/
def tag? (o : Outline) (t : Html.Tag) : Option Outline :=
  if t.name = ("ul" : Text) then
    match t.closing, o.opened with
    | false, [] => some { o with opened := [.list] }
    | false, .item number :: outer => some { o with opened := .list :: .item number :: outer }
    | true, .list :: outer => some { o with opened := outer }
    | _, _ => none
  else if t.name = ("li" : Text) then
    match t.closing, o.opened with
    | false, .list :: outer =>
      some { o with opened := .item o.count :: .list :: outer, count := o.count + 1 }
    | true, .item _ :: outer => some { o with opened := outer }
    | _, _ => none
  else if t.name = ("a" : Text) then
    match t.closing, o.opened with
    | false, .item number :: .list :: outer =>
      (target? t.attributes).map fun target =>
        { o with places := o.places ++ [⟨number, target, holder? outer⟩] }
    | true, .item _ :: _ => some o
    | _, _ => none
  else none

/-- Reads a part of a list. -/
def read? (o : Outline) (html : Text) : Option Outline := (tags? html).bind (·.foldlM tag? o)

end Outline

/-- The places of the links in a list all of whose elements are closed. -/
def places? (html : Text) : Option (List Place) :=
  (Outline.read? {} html).bind fun o => if o.opened.isEmpty then some o.places else none

example : places? ("<ul>\n<li><a href=\"#a\">a</a>\n<ul>\n<li><a href=\"#b\">b</a></li>\n</ul>\n</li>\n"
    ++ "<li><a href=\"#c\">c</a></li>\n</ul>\n") =
    some [⟨0, "#a", none⟩, ⟨1, "#b", some 0⟩, ⟨2, "#c", none⟩] := by decide +kernel

namespace Outline

/-- Reading `html` leads from one outline to another. -/
def Reads (html : Text) (o o' : Outline) : Prop :=
  ∃ ts, tags? html = some ts ∧ ts.foldlM tag? o = some o'

theorem Reads.append {a b : Text} {o o₁ o₂ : Outline} (ha : Reads a o o₁) (hb : Reads b o₁ o₂) :
    Reads (a ++ b) o o₂ := by
  obtain ⟨ts, hts, hfold⟩ := ha
  obtain ⟨us, hus, hfold'⟩ := hb
  refine ⟨ts ++ us, tags?_append hts hus, ?_⟩
  rw [List.foldlM_append, hfold]
  exact hfold'

theorem Reads.read?_eq {html : Text} {o o' : Outline} (h : Reads html o o') :
    o.read? html = some o' := by
  obtain ⟨ts, hts, hfold⟩ := h
  rw [read?, hts]
  exact hfold

/-- Reading `html` changes nothing but the open elements. -/
def Moves (html : Text) (s s' : List OpenElement) : Prop :=
  ∀ count places, Reads html ⟨s, count, places⟩ ⟨s', count, places⟩

theorem Moves.nil (s : List OpenElement) : Moves [] s s :=
  fun _ _ => ⟨[], by decide, rfl⟩

theorem Moves.append {a b : Text} {s s₁ s₂ : List OpenElement} (ha : Moves a s s₁)
    (hb : Moves b s₁ s₂) : Moves (a ++ b) s s₂ :=
  fun count places => (ha count places).append (hb count places)

theorem moves_endItem (number : Nat) (s : List OpenElement) :
    Moves "</li>\n" (.item number :: s) s :=
  fun _ _ => ⟨[.stop "li"], by decide, rfl⟩

theorem moves_closeList (number : Nat) (s : List OpenElement) :
    Moves closeList (.list :: .item number :: s) s :=
  fun _ _ => ⟨[.stop "ul", .stop "li"], by decide, rfl⟩

theorem moves_beginList (number : Nat) (s : List OpenElement) :
    Moves "\n<ul>\n" (.item number :: s) (.list :: .item number :: s) :=
  fun _ _ => ⟨[.start "ul" []], by decide, rfl⟩

theorem reads_link (entry : Entry) (s : List OpenElement) (count : Nat) (places : List Place) :
    Reads entry.link ⟨.list :: s, count, places⟩
      ⟨.item count :: .list :: s, count + 1,
        places ++ [⟨count, "#" ++ escape entry.id, holder? s⟩]⟩ :=
  ⟨_, tags?_link entry, rfl⟩

end Outline

/-! ## Shallower entries -/

/-- The number of the last entry that is shallower than a level. -/
def lastShallower? (entries : List Entry) (level : Nat) : Option Nat :=
  (entries.zipIdx.filter (·.1.level < level)).getLast?.map (·.2)

theorem lastShallower?_append (entries : List Entry) (entry : Entry) (level : Nat) :
    lastShallower? (entries ++ [entry]) level =
      if entry.level < level then some entries.length else lastShallower? entries level := by
  unfold lastShallower?
  rw [List.zipIdx_append, List.filter_append]
  split
  · next h => simp [h]
  · next h => simp [h]

/-! ## The open lists -/

/-- An item that is open between two entries. -/
structure OpenItem where
  number : Nat
  /-- The level that its list counts as. -/
  level : Nat

def elements : List OpenItem → List OpenElement
  | [] => []
  | item :: items => .item item.number :: .list :: elements items

def levels (items : List OpenItem) : List Nat := items.map (·.level)

theorem holder?_elements (items : List OpenItem) :
    holder? (elements items) = items.head?.map (·.number) := by
  cases items <;> rfl

/-- The open items that an entry of this level stands in. -/
def around (level : Nat) (items : List OpenItem) : List OpenItem :=
  items.filter (·.level < level)

theorem le_of_mem {levels : List Nat} {first : Nat} (hdeeper : levels.Pairwise (· > ·))
    (hlast : levels.getLast? = some first) : ∀ level ∈ levels, first ≤ level := by
  obtain ⟨inner, rfl⟩ := List.getLast?_eq_some_iff.1 hlast
  rw [List.pairwise_append] at hdeeper
  rw [List.forall_mem_append, List.forall_mem_singleton]
  exact ⟨fun level hlevel => Nat.le_of_lt (hdeeper.2.2 level hlevel first (by simp)), Nat.le_refl _⟩

/-- The open items behind entries, of which the first one has the level `first`: lists get deeper
inwards, the outermost keeps the level of the first entry, and an entry deeper than that level finds
the last shallower entry among the open items. -/
structure Tracks (first : Nat) (before : List Entry) (items : List OpenItem) : Prop where
  deeper : (levels items).Pairwise (· > ·)
  outermost : (levels items).getLast? = some first
  found : ∀ level, first < level →
    lastShallower? before level = (items.find? (·.level < level)).map (·.number)

/-- The open items behind an entry of this level, the number of which is `number`. -/
def follow (first level number : Nat) (items : List OpenItem) : List OpenItem :=
  ⟨number, max first level⟩ :: around (max first level) items

namespace Tracks

variable {first : Nat} {before : List Entry} {items : List OpenItem}

theorem le_level (h : Tracks first before items) : ∀ item ∈ items, first ≤ item.level :=
  fun _ hitem => le_of_mem h.deeper h.outermost _ (List.mem_map_of_mem hitem)

theorem outermost_follow (h : Tracks first before items) (level number : Nat) :
    (levels (follow first level number items)).getLast? = some first := by
  have hle := h.le_level
  obtain ⟨last, hlast, hlevel⟩ : ∃ last, items.getLast? = some last ∧ last.level = first := by
    simpa [levels, List.getLast?_map] using h.outermost
  obtain ⟨inner, rfl⟩ := List.getLast?_eq_some_iff.1 hlast
  by_cases hfirst : first < max first level
  · have hkept : around (max first level) (inner ++ [last]) =
        around (max first level) inner ++ [last] := by
      have hshallow : around (max first level) [last] = [last] :=
        List.filter_eq_self.2 (List.forall_mem_singleton.2 (decide_eq_true (hlevel ▸ hfirst)))
      rw [around, List.filter_append, ← around, ← around, hshallow]
    rw [follow, hkept, ← List.cons_append, levels, List.map_append, List.map_singleton,
      List.getLast?_concat, hlevel]
  · have hmax : max first level = first := by omega
    have hnone : around first (inner ++ [last]) = [] :=
      List.filter_eq_nil_iff.2 fun item hitem => by simpa using hle item hitem
    rw [follow, hmax, hnone]
    rfl

theorem append (h : Tracks first before items) (entry : Entry) :
    Tracks first (before ++ [entry]) (follow first entry.level before.length items) where
  deeper := by
    refine List.pairwise_cons.2 ⟨fun level hlevel => ?_, ?_⟩
    · obtain ⟨item, hitem, rfl⟩ := List.mem_map.1 hlevel
      simpa using (List.mem_filter.1 hitem).2
    · exact h.deeper.sublist (List.filter_sublist.map _)
  outermost := h.outermost_follow entry.level before.length
  found level hlevel := by
    rw [lastShallower?_append, follow, List.find?_cons]
    by_cases hentry : entry.level < level
    · have hmax : max first entry.level < level := by omega
      simp [hentry, hmax]
    · have hmax : ¬ max first entry.level < level := by omega
      -- an item that is left out is not shallower than the level either
      have hkept : (around (max first entry.level) items).find? (·.level < level) =
          items.find? (·.level < level) := by
        rw [around, List.find?_filter]
        congr 1
        funext item
        simp
        omega
      simp only [hmax, hentry, hkept, h.found level hlevel, decide_false, if_false]

/-- The entry at hand stands under the last shallower one, if it is deeper than the first. -/
theorem holder?_around (h : Tracks first before items) (level : Nat) :
    holder? (elements (around (max first level) items)) =
      if first < level then lastShallower? before level else none := by
  rw [holder?_elements, around, List.head?_filter]
  split
  · next hlevel =>
    rw [h.found level hlevel, Nat.max_eq_right (Nat.le_of_lt hlevel)]
  · next hlevel =>
    have hmax : max first level = first := by omega
    rw [hmax, List.find?_eq_none.2 fun item hitem => by simpa using h.le_level item hitem]
    rfl

end Tracks

/-! ## What is written before an entry -/

open Outline (Moves Reads)

theorem around_of_lt {level : Nat} {items : List OpenItem}
    (h : ∀ item ∈ items, item.level < level) :
    around level items = items :=
  List.filter_eq_self.2 fun item hitem => by simpa using h item hitem

/-- Lists are closed down to one whose parent is shallower than the entry. That list then counts as
one of the level of the entry, unless it is the outermost. -/
theorem moves_closeLists {first level current : Nat} {items : List OpenItem}
    (hdeeper : (current :: levels items).Pairwise (· > ·))
    (hlast : (current :: levels items).getLast? = some first) (hcurrent : max first level ≤ current) :
    (closeLists level (current :: levels items)).2 =
        max first level :: levels (around (max first level) items) ∧
      Moves (closeLists level (current :: levels items)).1 (.list :: elements items)
        (.list :: elements (around (max first level) items)) := by
  induction items generalizing current with
  | nil =>
    obtain rfl : current = first := by simpa [levels] using hlast
    have hmax : max current level = current := by omega
    exact ⟨by rw [hmax]; rfl, Moves.nil _⟩
  | cons item items ih =>
    have hlast' : (item.level :: levels items).getLast? = some first := by
      rw [← hlast]
      exact (List.getLast?_cons_cons ..).symm
    obtain ⟨houter, hinner⟩ := List.pairwise_cons.1 hdeeper
    have hfirst : first ≤ item.level := le_of_mem hinner hlast' _ List.mem_cons_self
    have hlt : ∀ other ∈ item :: items, other.level ≤ item.level := by
      rw [List.forall_mem_cons]
      refine ⟨Nat.le_refl _, fun other hother => Nat.le_of_lt ?_⟩
      exact (List.pairwise_cons.1 hinner).1 _ (List.mem_map_of_mem hother)
    have hparent : item.level < current := houter _ List.mem_cons_self
    show (closeLists level (current :: item.level :: levels items)).2 = _ ∧
      Moves (closeLists level (current :: item.level :: levels items)).1 _ _
    rw [closeLists]
    split
    · next hsame =>
      obtain rfl : level = current := by omega
      have hmax : max first level = level := by omega
      rw [hmax, around_of_lt fun other hother => Nat.lt_of_le_of_lt (hlt other hother) hparent]
      exact ⟨rfl, Moves.nil _⟩
    · split
      · next hjoins =>
        have hmax : max first level = level := by omega
        rw [hmax, around_of_lt fun other hother => Nat.lt_of_le_of_lt (hlt other hother) hjoins]
        exact ⟨rfl, Moves.nil _⟩
      · next hcloses =>
        have hmax : max first level ≤ item.level := by omega
        obtain ⟨hleft, hmoves⟩ := ih hinner hlast' hmax
        have hskip : around (max first level) (item :: items) = around (max first level) items :=
          List.filter_cons_of_neg (by simpa using hmax)
        rw [hskip]
        exact ⟨hleft, (Outline.moves_closeList item.number _).append hmoves⟩

namespace Tracks

variable {first : Nat} {before : List Entry} {items : List OpenItem}

/-- What is written before an entry leads into the list that the entry stands in. -/
theorem moves_openItem (h : Tracks first before items) (options : Options) (level number : Nat) :
    (openItem options level (levels items)).2 = levels (Toc.follow first level number items) ∧
      Moves (openItem options level (levels items)).1 (elements items)
        (.list :: elements (around (max first level) items)) := by
  cases items with
  | nil => cases h.outermost
  | cons item items =>
    have hfirst : first ≤ item.level := h.le_level item List.mem_cons_self
    show (openItem options level (item.level :: levels items)).2 = _ ∧
      Moves (openItem options level (item.level :: levels items)).1 _ _
    unfold openItem
    simp only
    split
    · next hdeeper =>
      have hmax : max first level = level := by omega
      have hall : around level (item :: items) = item :: items := around_of_lt <| by
        rw [List.forall_mem_cons]
        refine ⟨hdeeper, fun other hother => Nat.lt_trans ?_ hdeeper⟩
        exact (List.pairwise_cons.1 h.deeper).1 _ (List.mem_map_of_mem hother)
      rw [Toc.follow, hmax, hall]
      exact ⟨rfl, Outline.moves_beginList item.number _⟩
    · next hnot =>
      have hmax : max first level ≤ item.level := by omega
      obtain ⟨hleft, hmoves⟩ := moves_closeLists h.deeper h.outermost hmax
      have hskip : around (max first level) (item :: items) = around (max first level) items :=
        List.filter_cons_of_neg (by simpa using hmax)
      rw [Toc.follow, hskip]
      exact ⟨hleft, (Outline.moves_endItem item.number _).append hmoves⟩

end Tracks

/-! ## The whole list -/

/-- The place of an entry behind others: under the last one that is shallower, if the entry is
deeper than the first one, and else in the outermost list. -/
def placeBehind (before : List Entry) (entry : Entry) : Place where
  item := before.length
  target := "#" ++ escape entry.id
  outer :=
    if before.head?.any (·.level < entry.level) then lastShallower? before entry.level else none

/-- The place of an entry behind others that its level alone asks for. -/
def placeByLevel (before : List Entry) (entry : Entry) : Place where
  item := before.length
  target := "#" ++ escape entry.id
  outer := lastShallower? before entry.level

/-- The places of entries, each behind those before it. -/
def placesFrom (place : List Entry → Entry → Place) (before : List Entry) : List Entry → List Place
  | [] => []
  | entry :: rest => place before entry :: placesFrom place (before ++ [entry]) rest

theorem placesFrom_eq_iff {place place' : List Entry → Entry → Place} {before entries : List Entry} :
    placesFrom place before entries = placesFrom place' before entries ↔
      ∀ front entry rest, entries = front ++ entry :: rest →
        place (before ++ front) entry = place' (before ++ front) entry := by
  induction entries generalizing before with
  | nil => simp [placesFrom]
  | cons entry entries ih =>
    rw [placesFrom, placesFrom, List.cons_eq_cons, ih]
    constructor
    · rintro ⟨hfirst, hothers⟩ front other rest hentries
      cases front with
      | nil =>
        obtain ⟨rfl, rfl⟩ := List.cons.inj hentries
        simpa using hfirst
      | cons _ front =>
        obtain ⟨rfl, hbehind⟩ := List.cons.inj hentries
        simpa using hothers front other rest hbehind
    · intro hall
      refine ⟨by simpa using hall [] entry entries rfl, fun front other rest hentries => ?_⟩
      simpa using hall (entry :: front) other rest (by rw [hentries, List.cons_append])

theorem placeBehind_eq_placeByLevel_iff {before : List Entry} {entry : Entry} :
    placeBehind before entry = placeByLevel before entry ↔
      ((lastShallower? before entry.level).isSome = true →
        before.head?.any (·.level < entry.level) = true) := by
  unfold placeBehind placeByLevel
  cases lastShallower? before entry.level <;> simp

theorem moves_closeAll (items : List OpenItem) :
    Moves (List.replicate items.length closeList).flatten (.list :: elements items) [.list] := by
  induction items with
  | nil => exact Moves.nil _
  | cons item items ih => exact (Outline.moves_closeList item.number _).append ih

theorem moves_endList : Moves "</ul>\n" [.list] [] :=
  fun _ _ => ⟨[.stop "ul"], by decide, rfl⟩

/-- What is written for the entries behind the first one, through the end of the outermost list,
gives their places. -/
theorem reads_items {first : Entry} (options : Options) {before : List Entry} {items : List OpenItem}
    (h : Tracks first.level before items) (hfirst : before.head? = some first) (rest : List Entry)
    (places : List Place) :
    ∃ count, Reads (Toc.items options (levels items) rest ++ "</ul>\n")
      ⟨elements items, before.length, places⟩
      ⟨[], count, places ++ placesFrom placeBehind before rest⟩ := by
  induction rest generalizing before items places with
  | nil =>
    cases items with
    | nil => cases h.outermost
    | cons item items =>
      have hcount : (levels (item :: items)).length - 1 = items.length := by simp [levels]
      unfold Toc.items
      rw [hcount, placesFrom, List.append_nil]
      exact ⟨before.length, (((Outline.moves_endItem item.number _).append
        (moves_closeAll items)).append moves_endList) before.length places⟩
  | cons entry rest ih =>
    obtain ⟨hleft, hmoves⟩ := h.moves_openItem options entry.level before.length
    have hplace : placeBehind before entry =
        ⟨before.length, "#" ++ escape entry.id,
          holder? (elements (around (max first.level entry.level) items))⟩ := by
      rw [h.holder?_around, placeBehind, hfirst]
      simp
    obtain ⟨count, hrest⟩ := ih (h.append entry) (by simp [hfirst])
      (places ++ [placeBehind before entry])
    refine ⟨count, ?_⟩
    rw [List.length_append, List.append_assoc] at hrest
    unfold Toc.items
    simp only
    rw [hleft, List.append_assoc]
    refine ((hmoves before.length places).append ?_).append hrest
    rw [hplace]
    exact Outline.reads_link entry _ _ _

theorem places?_items (options : Options) (first : Entry) (rest : List Entry) :
    places? (Toc.items options [] (first :: rest) ++ "</ul>\n") =
      some (placesFrom placeBehind [] (first :: rest)) := by
  have htracks : Tracks first.level [first] [⟨0, first.level⟩] :=
    { deeper := List.pairwise_singleton _ _
      outermost := rfl
      found := fun level hlevel => by simp [lastShallower?, hlevel] }
  have hul := tags?_classTag "ul" options.listClass (by decide)
  have hopen : Moves ("<ul class=\"" ++ escape options.listClass ++ "\">\n") [] [.list] :=
    fun _ _ => ⟨_, hul, rfl⟩
  obtain ⟨count, hrest⟩ := reads_items options htracks rfl rest [placeBehind [] first]
  have hall := ((hopen 0 []).append (Outline.reads_link first [] 0 [])).append hrest
  have hitems : Toc.items options [] (first :: rest) ++ "</ul>\n" =
      "<ul class=\"" ++ escape options.listClass ++ "\">\n" ++ first.link ++
        (Toc.items options (levels [⟨0, first.level⟩]) rest ++ "</ul>\n") := by
    rw [← List.append_assoc]
    rfl
  rw [hitems, places?, hall.read?_eq]
  rfl

/-- The entries within the bounds stand in nested lists: one that is deeper than the first of them in
the list under the last shallower one before it, and any other in the outermost list. So they stand
where their levels ask for if and only if every entry that is deeper than one before it is deeper than
the first. -/
theorem places_render (entries : List Entry) (options : Options) (titleHtml : Option Text) :
    let listed := entries.filter (options.lists ·.level)
    ∃ list : Text,
      render entries options titleHtml =
        (if listed.isEmpty then [] else framed options titleHtml list) ∧
      places? list = some (placesFrom placeBehind [] listed) ∧
      (placesFrom placeBehind [] listed = placesFrom placeByLevel [] listed ↔
        ∀ before entry rest, listed = before ++ entry :: rest →
          (lastShallower? before entry.level).isSome = true →
            before.head?.any (·.level < entry.level) = true) := by
  intro listed
  have hiff : placesFrom placeBehind [] listed = placesFrom placeByLevel [] listed ↔
      ∀ before entry rest, listed = before ++ entry :: rest →
        (lastShallower? before entry.level).isSome = true →
          before.head?.any (·.level < entry.level) = true := by
    rw [placesFrom_eq_iff]
    simp only [List.nil_append, placeBehind_eq_placeByLevel_iff]
  cases hlisted : listed with
  | nil => exact ⟨[], render_eq entries options titleHtml hlisted, rfl, hlisted ▸ hiff⟩
  | cons first rest =>
    exact ⟨_, render_eq entries options titleHtml hlisted, places?_items options first rest,
      hlisted ▸ hiff⟩

/-- Headings of which the first is the deepest. -/
def deepFirst : List Entry := [⟨3, "A", "a"⟩, ⟨1, "B", "b"⟩, ⟨2, "C", "c"⟩]

/-- The third entry is deeper than the second, but it stands in the outermost list. -/
theorem placeBehind_deepFirst_ne :
    render deepFirst {} none = framed {} none
      ("<ul class=\"mdv-table-of-contents-list\">\n<li><a href=\"#a\">A</a></li>\n"
        ++ "<li><a href=\"#b\">B</a></li>\n<li><a href=\"#c\">C</a></li>\n</ul>\n") ∧
      placesFrom placeBehind [] deepFirst = [⟨0, "#a", none⟩, ⟨1, "#b", none⟩, ⟨2, "#c", none⟩] ∧
      placesFrom placeByLevel [] deepFirst = [⟨0, "#a", none⟩, ⟨1, "#b", none⟩, ⟨2, "#c", some 1⟩] := by
  decide +kernel

end Galley.Toc
