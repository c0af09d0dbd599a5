import Galley.Text

/-!
# Bytes of a text

A text as its bytes in UTF-8, and the parts of it between byte offsets. Only an offset at which a
character starts, or the end of the text, is one at which it can be cut.
-/

namespace Galley.Text

/-- The bytes of a text in UTF-8. -/
def bytes (s : Text) : List UInt8 := s.flatMap String.utf8EncodeChar

/-- Why a text cannot be cut at a byte offset, or has no part between two. -/
inductive OffsetError
  | insideCharacter | pastEnd | reversed
deriving DecidableEq, Repr

/-- The parts of a text before and behind a byte offset. -/
def splitAtByte : Text → Nat → Except OffsetError (Text × Text)
  | s, 0 => .ok ([], s)
  | [], _ + 1 => .error .pastEnd
  | c :: s, n + 1 =>
    if c.utf8Size ≤ n + 1 then (splitAtByte s (n + 1 - c.utf8Size)).map fun p => (c :: p.1, p.2)
    else .error .insideCharacter

def fromByte (s : Text) (offset : Nat) : Except OffsetError Text :=
  (splitAtByte s offset).map (·.2)

def slice (s : Text) (start stop : Nat) : Except OffsetError Text :=
  if start ≤ stop then do
    let rest ← fromByte s start
    (splitAtByte rest (stop - start)).map (·.1)
  else .error .reversed

/-- The byte offset of the first occurrence of `p` in `s`. -/
def findByte? (p : Text) : Text → Option Nat
  | [] => if p.isEmpty then some 0 else none
  | c :: s => if hasPrefix p (c :: s) then some 0 else (findByte? p s).map (c.utf8Size + ·)

theorem map_eq_ok_iff {α β : Type} {x : Except OffsetError α} {f : α → β} {b : β} :
    x.map f = .ok b ↔ ∃ a, x = .ok a ∧ f a = b := by
  cases x <;> simp [Except.map]

theorem splitAtByte_append (a b : Text) : splitAtByte (a ++ b) (byteLength a) = .ok (a, b) := by
  induction a with
  | nil => cases b <;> rfl
  | cons c a ih =>
    obtain ⟨n, hn⟩ : ∃ n, byteLength (c :: a) = n + 1 :=
      Nat.exists_eq_add_one.2 (Nat.add_pos_left c.utf8Size_pos _)
    have hrest : n + 1 - c.utf8Size = byteLength a := by
      rw [← hn, byteLength]
      omega
    have hsize : c.utf8Size ≤ n + 1 := by
      rw [← hn, byteLength]
      omega
    rw [hn, List.cons_append, splitAtByte, if_pos hsize, hrest, ih]
    rfl

theorem append_of_splitAtByte {s a b : Text} {n : Nat} (h : splitAtByte s n = .ok (a, b)) :
    s = a ++ b ∧ n = byteLength a := by
  induction s generalizing n a with
  | nil =>
    cases n with
    | zero =>
      cases h
      exact ⟨rfl, rfl⟩
    | succ n => cases h
  | cons c s ih =>
    cases n with
    | zero =>
      cases h
      exact ⟨rfl, rfl⟩
    | succ n =>
      rw [splitAtByte] at h
      split at h
      · next hsize =>
        obtain ⟨⟨a', b'⟩, hsplit, hparts⟩ := map_eq_ok_iff.1 h
        obtain ⟨rfl, rfl⟩ := Prod.mk.inj hparts
        obtain ⟨rfl, hn⟩ := ih hsplit
        refine ⟨rfl, ?_⟩
        show n + 1 = c.utf8Size + byteLength a'
        omega
      · cases h

theorem fromByte_append (a b : Text) : fromByte (a ++ b) (byteLength a) = .ok b := by
  rw [fromByte, splitAtByte_append]
  rfl

theorem fromByte_eq_ok_iff {s b : Text} {n : Nat} :
    fromByte s n = .ok b ↔ ∃ a, s = a ++ b ∧ n = byteLength a := by
  constructor
  · intro h
    obtain ⟨⟨a, b'⟩, hsplit, rfl⟩ := map_eq_ok_iff.1 h
    exact ⟨a, append_of_splitAtByte hsplit⟩
  · rintro ⟨a, rfl, rfl⟩
    exact fromByte_append a b

theorem byteLength_of_fromByte {s b : Text} {n : Nat} (h : fromByte s n = .ok b) :
    byteLength s = n + byteLength b := by
  obtain ⟨a, rfl, rfl⟩ := fromByte_eq_ok_iff.1 h
  exact byteLength_append a b

/-- A part of a text lies between two offsets exactly if it starts at the first and ends at the
second. -/
theorem slice_eq_ok_iff {s w : Text} {start stop : Nat} :
    slice s start stop = .ok w ↔
      ∃ a b, s = a ++ (w ++ b) ∧ start = byteLength a ∧ stop = byteLength a + byteLength w := by
  constructor
  · intro h
    rw [slice] at h
    split at h
    · next hle =>
      cases hrest : fromByte s start with
      | error e =>
        rw [hrest] at h
        cases h
      | ok rest =>
        rw [hrest] at h
        obtain ⟨a, rfl, rfl⟩ := fromByte_eq_ok_iff.1 hrest
        obtain ⟨⟨w', b⟩, hsplit, hpart⟩ := map_eq_ok_iff.1 h
        obtain rfl : w' = w := hpart
        obtain ⟨rfl, hlength⟩ := append_of_splitAtByte hsplit
        exact ⟨a, b, rfl, rfl, by omega⟩
    · cases h
  · rintro ⟨a, b, rfl, rfl, rfl⟩
    have hlength : byteLength a + byteLength w - byteLength a = byteLength w := by omega
    rw [slice, if_pos (by omega), fromByte_append, hlength]
    show (splitAtByte (w ++ b) (byteLength w)).map (·.1) = _
    rw [splitAtByte_append]
    rfl

end Galley.Text
