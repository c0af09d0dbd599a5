import Galley.Proofs.Text
import Galley.Render.Headings
import Mathlib.Data.List.Nodup

/-!
# The ids of headings

Headings without explicit ids get their slugs as ids, and a slug that was used `n` times before gets
the suffix `-n`. Suffixed slugs and slugs share one name space. So the ids of a document are distinct
exactly when no heading has the slug that another slug gets with a suffix (`nodup_ids_iff`).
-/

namespace Galley

namespace Render

/-! ## Numbered slugs -/

def numberedId (base : Text) : Nat → Text
  | 0 => base
  | n + 1 => base ++ "-" ++ Text.ofNat (n + 1)

theorem numberedId_succ_inj {a b : Text} {m n : Nat}
    (h : numberedId a (m + 1) = numberedId b (n + 1)) : a = b ∧ m = n := by
  have hcut : a ++ '-' :: Text.ofNat (m + 1) = b ++ '-' :: Text.ofNat (n + 1) := by
    simpa [numberedId] using h
  have hdash : ∀ k, '-' ∉ Text.ofNat k := Text.not_mem_ofNat (by decide)
  obtain ⟨hbase, hdigits⟩ := Text.eq_of_append_cons_eq (hdash _) (hdash _) hcut
  have hsucc := Text.ofNat_inj hdigits
  exact ⟨hbase, by omega⟩

theorem numberedId_inj_iff {base : Text} {m n : Nat} :
    numberedId base m = numberedId base n ↔ m = n := by
  have hlonger : ∀ k, base ≠ numberedId base (k + 1) := by
    intro k h
    have hlength := congrArg List.length h
    simp [numberedId] at hlength
  constructor
  · intro h
    cases m with
    | zero =>
      cases n with
      | zero => rfl
      | succ n => exact absurd h (hlonger n)
    | succ m =>
      cases n with
      | zero => exact absurd h.symm (hlonger m)
      | succ n => rw [(numberedId_succ_inj h).2]
  · exact congrArg _

/-- The bases of ids in the order of their use, each with the number of its earlier uses. -/
def IdCounts.numbering : IdCounts → List Text → List (Text × Nat)
  | _, [] => []
  | ids, base :: bases => (base, ids.uses base) :: numbering (ids.use base) bases

namespace IdCounts

theorem uses_use (ids : IdCounts) (id other : Text) :
    (ids.use id).uses other = ids.uses other + if id = other then 1 else 0 := by
  by_cases h : id = other
  · rw [if_pos h, h, uses_use_self]
  · rw [if_neg h, uses_use_of_ne ids (Ne.symm h), Nat.add_zero]

theorem mem_numbering_iff {ids : IdCounts} {bases : List Text} {base : Text} {n : Nat} :
    (base, n) ∈ ids.numbering bases ↔
      ids.uses base ≤ n ∧ n < ids.uses base + bases.count base := by
  induction bases generalizing ids with
  | nil =>
    simp only [numbering, List.not_mem_nil, List.count_nil, false_iff, not_and]
    omega
  | cons first bases ih =>
    rw [numbering, List.mem_cons, ih, uses_use, List.count_cons, Prod.mk.injEq]
    by_cases h : first = base
    · subst h
      simp only [if_true, true_and, beq_self_eq_true]
      omega
    · have hne : base ≠ first := Ne.symm h
      simp only [if_neg h, hne, false_and, false_or, beq_eq_false_iff_ne.2 h, Bool.false_eq_true,
        if_false]
      omega

theorem nodup_numbering (ids : IdCounts) (bases : List Text) : (ids.numbering bases).Nodup := by
  induction bases generalizing ids with
  | nil => exact List.nodup_nil
  | cons base bases ih =>
    rw [numbering, List.nodup_cons]
    refine ⟨fun hmem => ?_, ih _⟩
    have hlater := (mem_numbering_iff.1 hmem).1
    rw [uses_use_self] at hlater
    omega

end IdCounts

/-! ## Headings one after another -/

/-- A heading without an explicit id: its level, its line, and its texts in turn. -/
structure PlainHeading where
  level : Nat
  line : Option Nat := none
  texts : List Text

/-- The slug of a heading is that of all its texts. -/
def PlainHeading.slug (h : PlainHeading) : Text := Galley.slug h.texts.flatten

namespace Headings

def read (hs : Headings) (h : PlainHeading) : Headings :=
  let opened := h.texts.foldl pushText (hs.start h.level none h.line)
  (opened.complete.map (·.2)).getD opened

def readAll (hs : Headings) (headings : List PlainHeading) : Headings := headings.foldl read hs

def recordedIds (hs : Headings) : List Text := hs.toc.map (·.id)

theorem foldl_pushText (texts : List Text) (hs : Headings) :
    texts.foldl pushText hs = hs.pushText texts.flatten := by
  induction texts generalizing hs with
  | nil => simp [pushText]
  | cons text texts ih =>
    rw [List.foldl_cons, ih]
    simp [pushText, Function.comp_def]

theorem idOf_eq (ids : IdCounts) {h : OpenHeading} (hid : h.explicitId = none) :
    idOf ids h = numberedId (slug h.text) (ids.uses (slug h.text)) := by
  unfold idOf
  rw [hid]
  cases hn : ids.uses (slug h.text) <;> simp [numberedId, hn]

theorem read_eq (hs : Headings) (h : PlainHeading) :
    (hs.read h).ids = hs.ids.use h.slug ∧
      (hs.read h).recordedIds = hs.recordedIds ++ [numberedId h.slug (hs.ids.uses h.slug)] := by
  have hid := idOf_eq hs.ids (h := ⟨h.level, none, h.line, h.texts.flatten, []⟩) rfl
  unfold read
  rw [foldl_pushText]
  simp only [start, pushText, complete, recordedIds, Option.map_some, Option.getD_some,
    List.nil_append, List.map_append, List.map_cons, List.map_nil]
  exact ⟨rfl, congrArg (fun id => hs.toc.map (·.id) ++ [id]) hid⟩

theorem recordedIds_readAll (hs : Headings) (headings : List PlainHeading) :
    (hs.readAll headings).recordedIds = hs.recordedIds ++
      (hs.ids.numbering (headings.map (·.slug))).map fun p => numberedId p.1 p.2 := by
  induction headings generalizing hs with
  | nil => simp [readAll, IdCounts.numbering]
  | cons h headings ih =>
    obtain ⟨hids, hrecorded⟩ := read_eq hs h
    rw [readAll, List.foldl_cons]
    have hrest := ih (hs.read h)
    rw [readAll, hids, hrecorded] at hrest
    rw [hrest, List.map_cons, IdCounts.numbering, List.map_cons, List.append_assoc]
    rfl

/-- The ids are distinct exactly when no slug is another slug with a suffix that was given out. -/
theorem nodup_ids_iff (headings : List PlainHeading) :
    (({} : Headings).readAll headings).recordedIds.Nodup ↔
      ∀ base n, n + 1 < (headings.map (·.slug)).count base →
        numberedId base (n + 1) ∉ headings.map (·.slug) := by
  have hmem : ∀ base n, (base, n) ∈ IdCounts.numbering [] (headings.map (·.slug)) ↔
      n < (headings.map (·.slug)).count base := by
    intro base n
    have huses : IdCounts.uses [] base = 0 := rfl
    rw [IdCounts.mem_numbering_iff, huses]
    omega
  rw [recordedIds_readAll]
  change ((IdCounts.numbering [] _).map _).Nodup ↔ _
  rw [List.nodup_map_iff_inj_on (IdCounts.nodup_numbering [] _)]
  constructor
  · intro hinj base n hn hslug
    have hplain : (numberedId base (n + 1), 0) ∈ IdCounts.numbering [] (headings.map (·.slug)) := by
      rw [hmem]
      exact List.count_pos_iff.2 hslug
    have heq := hinj (base, n + 1) ((hmem base (n + 1)).2 hn) _ hplain rfl
    exact absurd (Prod.mk.inj heq).2 (Nat.succ_ne_zero n)
  · rintro hslugs ⟨a, m⟩ ha ⟨b, n⟩ hb heq
    rw [hmem] at ha hb
    -- a suffixed slug is no slug, and two suffixed slugs have the same slug and number
    cases m with
    | zero =>
      cases n with
      | zero => rw [show a = b from heq]
      | succ n =>
        refine absurd ?_ (hslugs b n hb)
        rw [← show a = numberedId b (n + 1) from heq]
        exact List.count_pos_iff.1 ha
    | succ m =>
      cases n with
      | zero =>
        refine absurd ?_ (hslugs a m ha)
        rw [show numberedId a (m + 1) = b from heq]
        exact List.count_pos_iff.1 hb
      | succ n =>
        obtain ⟨rfl, rfl⟩ := numberedId_succ_inj heq
        rfl

/-- The suffixed slug of the second heading is the slug of the third. -/
theorem recordedIds_faq_not_nodup :
    (({} : Headings).readAll
        [⟨1, none, ["FAQ"]⟩, ⟨1, none, ["FAQ"]⟩, ⟨1, none, ["FAQ ", "1"]⟩]).recordedIds =
      ["faq", "faq-1", "faq-1"] ∧
    ¬ (({} : Headings).readAll
        [⟨1, none, ["FAQ"]⟩, ⟨1, none, ["FAQ"]⟩, ⟨1, none, ["FAQ ", "1"]⟩]).recordedIds.Nodup := by
  decide +kernel

end Headings

end Render

end Galley
