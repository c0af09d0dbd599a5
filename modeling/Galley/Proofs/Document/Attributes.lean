import Galley.Document.FrontMatter
import Galley.Proofs.Text
import Mathlib.Data.Finset.Card

/-!
# Setting attributes

The attributes of a document are an ordered map. Setting values adds a name at most once, behind
the others, and changes nothing else, so that the names are distinct and keep the order in which
they were set first (`ofList_isOrderedMap`). The values of an entry are those that its name leads
to.
-/

namespace Galley.Document

namespace Attributes

variable {name other : Text} {values : List Text} {entries : List (Text × List Text)}

/-! ## Setting one name -/

theorem names_set (name : Text) (values : List Text) (entries : List (Text × List Text)) :
    (set name values entries).map (·.1) =
      if name ∈ entries.map (·.1) then entries.map (·.1) else entries.map (·.1) ++ [name] := by
  induction entries with
  | nil => rfl
  | cons entry entries ih =>
    obtain ⟨n, vs⟩ := entry
    rw [set]
    split
    · next h => simp [h]
    · next h =>
      rw [List.map_cons, ih, List.map_cons]
      simp only [List.mem_cons, Ne.symm h, false_or]
      split
      · rfl
      · rfl

theorem lookup_cons (name other : Text) (values : List Text) (entries : List (Text × List Text)) :
    List.lookup other ((name, values) :: entries) =
      if other = name then some values else entries.lookup other := by
  rw [List.lookup_cons]
  split
  · next h => rw [if_pos (beq_iff_eq.1 h)]
  · next h => rw [if_neg (beq_eq_false_iff_ne.1 h)]

theorem lookup_set (name other : Text) (values : List Text) (entries : List (Text × List Text)) :
    (set name values entries).lookup other =
      if other = name then some values else entries.lookup other := by
  induction entries with
  | nil => exact lookup_cons name other values []
  | cons entry entries ih =>
    obtain ⟨n, vs⟩ := entry
    rw [set]
    split
    · next h =>
      rw [lookup_cons, lookup_cons, h]
      split
      · rfl
      · rfl
    · next h =>
      rw [lookup_cons, ih, lookup_cons]
      by_cases hother : other = n
      · simp [hother, h]
      · simp [hother]

theorem getElem?_set_iff (h : other ≠ name) {place : Nat} {otherValues : List Text} :
    (set name values entries)[place]? = some (other, otherValues) ↔
      entries[place]? = some (other, otherValues) := by
  induction entries generalizing place with
  | nil =>
    cases place with
    | zero => simp [set, Ne.symm h]
    | succ place => simp [set]
  | cons entry entries ih =>
    obtain ⟨n, vs⟩ := entry
    rw [set]
    split
    · next hn =>
      cases place with
      | zero => simp [hn, Ne.symm h]
      | succ place => rfl
    · cases place with
      | zero => rfl
      | succ place => exact ih

/-! ## Setting one after the other -/

theorem ofList_concat (pairs : List (Text × List Text)) (pair : Text × List Text) :
    ofList (pairs ++ [pair]) = (ofList pairs).insert pair.1 pair.2 := by
  rw [ofList, List.foldl_append]
  rfl

theorem names_ofList (pairs : List (Text × List Text)) :
    (ofList pairs).names = (pairs.map (·.1)).eraseDups := by
  induction pairs using List.reverseRecOn with
  | nil => rfl
  | append_singleton pairs pair ih =>
    have hnames : (ofList (pairs ++ [pair])).names =
        if pair.1 ∈ (ofList pairs).names then (ofList pairs).names
        else (ofList pairs).names ++ [pair.1] := by
      rw [ofList_concat]
      exact names_set pair.1 pair.2 _
    rw [hnames, ih, List.map_append, List.map_singleton, Text.eraseDups_concat]
    simp only [List.mem_eraseDups]

theorem nodup_names_ofList (pairs : List (Text × List Text)) : (ofList pairs).names.Nodup := by
  rw [names_ofList]
  exact Text.nodup_eraseDups _

theorem get?_ofList (pairs : List (Text × List Text)) (name : Text) :
    (ofList pairs).get? name = pairs.reverse.lookup name := by
  induction pairs using List.reverseRecOn with
  | nil => rfl
  | append_singleton pairs pair ih =>
    rw [ofList_concat, insert, get?, lookup_set, List.reverse_concat, lookup_cons, ← ih, get?]

theorem size_ofList (pairs : List (Text × List Text)) :
    (ofList pairs).size = (pairs.map (·.1)).toFinset.card := by
  have hsize : (ofList pairs).size = (ofList pairs).names.length := (List.length_map _).symm
  have hsame : (ofList pairs).names.toFinset = (pairs.map (·.1)).toFinset := by
    ext name
    rw [List.mem_toFinset, List.mem_toFinset, names_ofList, List.mem_eraseDups]
  rw [hsize, ← List.toFinset_card_of_nodup (nodup_names_ofList pairs), hsame]

/-- Attributes that are set one after the other are an ordered map. The names are distinct and
stand in the order in which they were set first, each leads to the values that were set last, and
setting the values of a name changes no other value and leaves all other entries where they are. -/
theorem ofList_isOrderedMap (pairs : List (Text × List Text)) :
    (ofList pairs).names.Nodup ∧
      (ofList pairs).names = (pairs.map (·.1)).eraseDups ∧
      (∀ name, (ofList pairs).get? name = pairs.reverse.lookup name) ∧
      (ofList pairs).size = (pairs.map (·.1)).toFinset.card ∧
      ∀ (name : Text) values (other : Text), other ≠ name →
        ((ofList pairs).insert name values).get? other = (ofList pairs).get? other ∧
          ∀ (place : Nat) otherValues,
            ((ofList pairs).insert name values).entries[place]? = some (other, otherValues) ↔
              (ofList pairs).entries[place]? = some (other, otherValues) := by
  refine ⟨nodup_names_ofList pairs, names_ofList pairs, get?_ofList pairs, size_ofList pairs, ?_⟩
  intro name values other h
  refine ⟨?_, fun place otherValues => getElem?_set_iff h⟩
  rw [insert, get?, lookup_set, if_neg h, get?]

/-- Tags that are set twice, around a title and in front of an attribute without values. -/
def tagsTwice : List (Text × List Text) :=
  [("tags", ["a"]), ("title", ["T"]), ("tags", ["b", "c"]), ("draft", [])]

theorem ofList_isOrderedMap_tagsTwice :
    (ofList tagsTwice).names = ["tags", "title", "draft"] ∧
      (ofList tagsTwice).get? "tags" = some (["b", "c"] : List Text) ∧
      (ofList tagsTwice).get? "date" = none ∧ (ofList tagsTwice).size = 3 ∧
      ("tags" : Text) ≠ "title" ∧
      ((ofList tagsTwice).insert "title" []).get? "tags" = (ofList tagsTwice).get? "tags" ∧
      ((ofList tagsTwice).insert "title" []).entries[0]? =
        some (("tags", ["b", "c"]) : Text × List Text) := by
  have hne : ("tags" : Text) ≠ "title" := by decide
  obtain ⟨-, hnames, hget, hsize, hkept⟩ := ofList_isOrderedMap tagsTwice
  obtain ⟨hvalues, hplace⟩ := hkept "title" [] "tags" hne
  exact ⟨hnames.trans (by decide), (hget _).trans (by decide), (hget _).trans (by decide),
    hsize.trans (by decide), hne, hvalues, (hplace 0 _).2 (by decide)⟩

/-! ## The values of an entry -/

theorem get?_of_mem {attrs : Attributes} (h : attrs.names.Nodup) {name : Text}
    {values : List Text} (hmem : (name, values) ∈ attrs.entries) : attrs.get? name = some values := by
  obtain ⟨entries⟩ := attrs
  induction entries with
  | nil => cases hmem
  | cons entry entries ih =>
    obtain ⟨n, vs⟩ := entry
    obtain ⟨hn, hentries⟩ := List.nodup_cons.1 h
    rcases List.mem_cons.1 hmem with heq | hmem
    · obtain ⟨rfl, rfl⟩ := Prod.mk.inj heq
      exact List.lookup_cons_self
    · have hne : name ≠ n := fun heq => hn (heq ▸ List.mem_map_of_mem (f := (·.1)) hmem)
      have hlookup : List.lookup name ((n, vs) :: entries) = List.lookup name entries := by
        rw [List.lookup_cons, beq_false_of_ne hne]
      rw [get?, hlookup]
      exact ih hentries hmem

end Attributes

theorem FrontMatter.nodup_names_extract (markup : Text) : (extract markup).names.Nodup := by
  unfold extract
  split
  · next attrs hattrs =>
    obtain ⟨yaml, -, hparse⟩ := Option.map_eq_some_iff.1 hattrs
    unfold parse at hparse
    split at hparse
    · cases hparse
    · obtain rfl := Except.ok.inj hparse
      exact List.nodup_nil
    · obtain rfl := Except.ok.inj hparse
      exact Attributes.nodup_names_ofList _
    · cases hparse
  · exact List.nodup_nil

end Galley.Document
