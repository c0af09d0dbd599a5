import Galley.Html.Escape

/-!
# Tags

A tag opens an element, under a name and with attributes, or closes one. The reader of what stands
between the brackets of a tag is strict: attributes have the form ` key` or ` key="value"`, and no
value holds a bracket or a double quote.

The main fact is `Tag.ofBody?_eq_some_iff`: the reader accepts exactly the bodies of sound tags,
and gives the tag back.
-/

namespace Galley.Html

/-- Whether `c` opens or closes a tag. -/
def isBracket (c : Char) : Bool := c = '<' || c = '>'

def isPlain (s : Text) : Bool := s.all (!isBracket ·)

def isNameChar (c : Char) : Bool := c.isLower || c.isDigit

/-- Whether `c` may stand in the key of an attribute. The slash before the end of a tag reads as
a key of its own. -/
def isKeyChar (c : Char) : Bool := c.isLower || c = '-' || c = '/'

def isValueChar (c : Char) : Bool := !isBracket c && c ≠ '"'

@[simp] theorem isPlain_nil : isPlain [] = true := rfl

@[simp] theorem isPlain_cons (c : Char) (s : Text) :
    isPlain (c :: s) = (!isBracket c && isPlain s) := rfl

@[simp] theorem isPlain_append (s t : Text) : isPlain (s ++ t) = (isPlain s && isPlain t) :=
  List.all_append

theorem not_mem_of_isPlain {s : Text} {c : Char} (hs : isPlain s = true) (hc : isBracket c = true) :
    c ∉ s := by
  intro hmem
  have hplain := List.all_eq_true.1 hs c hmem
  rw [hc] at hplain
  cases hplain

theorem isPlain_of_all {p : Char → Bool} (hlt : p '<' = false) (hgt : p '>' = false) {s : Text}
    (h : s.all p = true) : isPlain s = true := by
  rw [isPlain, List.all_eq_true]
  intro c hc
  have hp := List.all_eq_true.1 h c hc
  have hne : c ≠ '<' ∧ c ≠ '>' := by
    refine ⟨?_, ?_⟩ <;> rintro rfl
    · rw [hlt] at hp
      cases hp
    · rw [hgt] at hp
      cases hp
  simp [isBracket, hne]

/-! ## Attributes -/

structure Attribute where
  key : Text
  value : Option Text := none
deriving DecidableEq, Repr

namespace Attribute

def source (a : Attribute) : Text :=
  match a.value with
  | none => " " ++ a.key
  | some v => " " ++ a.key ++ "=\"" ++ v ++ "\""

/-- Whether the attribute can be read back. -/
def isSound (a : Attribute) : Bool :=
  !a.key.isEmpty && a.key.all isKeyChar && a.value.all (·.all isValueChar)

theorem isSound_iff {a : Attribute} : a.isSound = true ↔
    a.key ≠ [] ∧ a.key.all isKeyChar = true ∧ ∀ v, a.value = some v → v.all isValueChar = true := by
  cases a with
  | mk k v => cases v <;> simp [isSound, and_assoc]

/-- Where the reading of attributes stands: behind an attribute, in a key, behind the `=` after a
key, or in a value. -/
inductive Scan
  | gap
  | key (key : Text)
  | equals (key : Text)
  | value (key value : Text)

/-- What was read of the attribute at hand. -/
def Scan.source : Scan → Text
  | gap => []
  | key k => " " ++ k
  | equals k => " " ++ k ++ "="
  | value k v => " " ++ k ++ "=\"" ++ v

/-- Whether what was read of the attribute at hand can be completed. -/
def Scan.isSound : Scan → Bool
  | gap => true
  | key k => k.all isKeyChar
  | equals k => !k.isEmpty && k.all isKeyChar
  | value k v => !k.isEmpty && k.all isKeyChar && v.all isValueChar

def readFrom : Scan → Text → Option (List Attribute)
  | .gap, [] => some []
  | .gap, c :: s => if c = ' ' then readFrom (.key []) s else none
  | .key k, [] => if k.isEmpty then none else some [⟨k, none⟩]
  | .key k, c :: s =>
    if isKeyChar c then readFrom (.key (k ++ [c])) s
    else if k.isEmpty then none
    else if c = ' ' then (readFrom (.key []) s).map (⟨k, none⟩ :: ·)
    else if c = '=' then readFrom (.equals k) s
    else none
  | .equals _, [] => none
  | .equals k, c :: s => if c = '"' then readFrom (.value k []) s else none
  | .value _ _, [] => none
  | .value k v, c :: s =>
    if isValueChar c then readFrom (.value k (v ++ [c])) s
    else if c = '"' then (readFrom .gap s).map (⟨k, some v⟩ :: ·)
    else none

/-- The attributes that stand in a tag behind its name. -/
def list? (s : Text) : Option (List Attribute) := readFrom .gap s

def sources (as : List Attribute) : Text := as.flatMap source

theorem source_eq_cons (a : Attribute) : ∃ s, a.source = ' ' :: s := by
  unfold source
  split <;> exact ⟨_, rfl⟩

@[simp] theorem sources_nil : sources [] = [] := rfl

@[simp] theorem sources_cons (a : Attribute) (as : List Attribute) :
    sources (a :: as) = a.source ++ sources as := rfl

@[simp] theorem sources_append (as bs : List Attribute) :
    sources (as ++ bs) = sources as ++ sources bs := List.flatMap_append

theorem source_of_readFrom {scan : Scan} {s : Text} {as : List Attribute}
    (hs : scan.isSound = true) (h : readFrom scan s = some as) :
    scan.source ++ s = sources as ∧ as.all isSound = true := by
  fun_induction readFrom scan s generalizing as with
  | case1 =>
    obtain rfl := Option.some.inj h
    exact ⟨rfl, rfl⟩
  | case2 s ih => simpa [Scan.source] using ih rfl h
  | case3 => cases h
  | case4 => cases h
  | case5 k hk =>
    obtain rfl := Option.some.inj h
    simpa [Scan.source, Scan.isSound, source, isSound, hk] using hs
  | case6 k c s hc ih =>
    simpa [Scan.source] using ih (by simpa [Scan.isSound, hc] using hs) h
  | case7 => cases h
  | case8 k s hk _ ih =>
    have hk : k ≠ [] := by simpa using hk
    obtain ⟨bs, hbs, rfl⟩ := Option.map_eq_some_iff.1 h
    obtain ⟨hsrc, hsound⟩ := ih rfl hbs
    refine ⟨?_, ?_⟩
    · simpa [Scan.source, source] using hsrc
    · simpa [Scan.isSound, isSound, hk, hsound] using hs
  | case9 k s hk _ _ ih =>
    have hk : k ≠ [] := by simpa using hk
    have hk' : (Scan.equals k).isSound = true := by simpa [Scan.isSound, hk] using hs
    simpa [Scan.source] using ih hk' h
  | case10 => cases h
  | case11 => cases h
  | case12 k s ih => simpa [Scan.source] using ih (by simpa [Scan.isSound] using hs) h
  | case13 => cases h
  | case14 => cases h
  | case15 k v c s hc ih =>
    simpa [Scan.source] using ih (by simpa [Scan.isSound, hc, and_assoc] using hs) h
  | case16 k v s _ ih =>
    obtain ⟨bs, hbs, rfl⟩ := Option.map_eq_some_iff.1 h
    obtain ⟨hsrc, hsound⟩ := ih rfl hbs
    refine ⟨?_, ?_⟩
    · simpa [Scan.source, source] using hsrc
    · simpa [isSound, hsound, Scan.isSound, and_assoc] using hs
  | case17 => cases h

theorem readFrom_key {k t : Text} (ht : t.all isKeyChar = true) (s : Text) :
    readFrom (.key k) (t ++ s) = readFrom (.key (k ++ t)) s := by
  induction t generalizing k with
  | nil => simp
  | cons c t ih =>
    obtain ⟨hc, ht⟩ : isKeyChar c = true ∧ t.all isKeyChar = true := by simpa using ht
    simp [readFrom, hc, ih ht]

theorem readFrom_value {k v t : Text} (ht : t.all isValueChar = true) (s : Text) :
    readFrom (.value k v) (t ++ s) = readFrom (.value k (v ++ t)) s := by
  induction t generalizing v with
  | nil => simp
  | cons c t ih =>
    obtain ⟨hc, ht⟩ : isValueChar c = true ∧ t.all isValueChar = true := by simpa using ht
    simp [readFrom, hc, ih ht]

theorem readFrom_key_sources {k : Text} (hk : k ≠ []) (as : List Attribute) :
    readFrom (.key k) (sources as) = (list? (sources as)).map (⟨k, none⟩ :: ·) := by
  cases as with
  | nil => simp [readFrom, list?, hk]
  | cons a as =>
    obtain ⟨s, hs⟩ := a.source_eq_cons
    rw [sources_cons, hs]
    simp [readFrom, list?, hk, show isKeyChar ' ' = false by decide]

theorem list?_sources {as : List Attribute} (h : as.all isSound = true) :
    list? (sources as) = some as := by
  induction as with
  | nil => rfl
  | cons a as ih =>
    obtain ⟨ha, has⟩ : a.isSound = true ∧ as.all isSound = true := by simpa using h
    obtain ⟨hk, hkc, hv⟩ := isSound_iff.1 ha
    obtain ⟨k, v⟩ := a
    rw [sources_cons]
    cases v with
    | none =>
      show readFrom (.key []) (k ++ sources as) = _
      rw [readFrom_key hkc, List.nil_append, readFrom_key_sources hk, ih has]
      rfl
    | some v =>
      show readFrom (.key []) (k ++ "=\"".toList ++ v ++ "\"".toList ++ sources as) = _
      have hequals : ∀ s, readFrom (.key k) ('=' :: '"' :: s) = readFrom (.value k []) s := by
        intro s
        simp [readFrom, hk, show isKeyChar '=' = false by decide]
      have hquote : ∀ s, readFrom (.value k v) ('"' :: s) = (list? s).map (⟨k, some v⟩ :: ·) := by
        intro s
        simp [readFrom, list?, show isValueChar '"' = false by decide]
      simp only [List.append_assoc]
      rw [readFrom_key hkc, List.nil_append]
      show readFrom (.key k) ('=' :: '"' :: (v ++ '"' :: sources as)) = _
      rw [hequals, readFrom_value (hv v rfl), List.nil_append, hquote, ih has]
      rfl

theorem isPlain_source {a : Attribute} (h : a.isSound = true) : isPlain a.source = true := by
  obtain ⟨-, hkc, hv⟩ := isSound_iff.1 h
  obtain ⟨k, v⟩ := a
  have hk : isPlain k = true := isPlain_of_all (by decide) (by decide) hkc
  cases v with
  | none => simp [source, hk, isBracket]
  | some v =>
    have hv : isPlain v = true := isPlain_of_all (by decide) (by decide) (hv v rfl)
    simp [source, hk, hv, isBracket]

theorem isPlain_sources {as : List Attribute} (h : as.all isSound = true) :
    isPlain (sources as) = true := by
  induction as with
  | nil => rfl
  | cons a as ih =>
    obtain ⟨ha, has⟩ : a.isSound = true ∧ as.all isSound = true := by simpa using h
    rw [sources_cons, isPlain_append, isPlain_source ha, ih has]
    rfl

theorem list?_eq_some_iff {s : Text} {as : List Attribute} :
    list? s = some as ↔ s = sources as ∧ as.all isSound = true := by
  constructor
  · intro h
    have hgap : Scan.gap.isSound = true := rfl
    exact source_of_readFrom hgap h
  · rintro ⟨rfl, h⟩
    exact list?_sources h

end Attribute

/-! ## Tags -/

/-- A tag that opens an element, or one that closes it. -/
structure Tag where
  closing : Bool
  name : Text
  attributes : List Attribute := []
deriving DecidableEq, Repr

namespace Tag

abbrev start (name : Text) (attributes : List Attribute) : Tag := ⟨false, name, attributes⟩

abbrev stop (name : Text) : Tag := ⟨true, name, []⟩

/-- What stands between the brackets of a tag. -/
def body (t : Tag) : Text :=
  if t.closing then '/' :: t.name else t.name ++ Attribute.sources t.attributes

def isName (s : Text) : Bool := !s.isEmpty && s.all isNameChar

def isSound (t : Tag) : Bool :=
  isName t.name && if t.closing then t.attributes.isEmpty else t.attributes.all Attribute.isSound

theorem isSound_iff {t : Tag} : t.isSound = true ↔
    t.name ≠ [] ∧ t.name.all isNameChar = true ∧
      if t.closing then t.attributes = [] else t.attributes.all Attribute.isSound = true := by
  obtain ⟨closing, name, as⟩ := t
  cases closing <;> simp [isSound, isName, and_assoc]

theorem all_isSound_attributes {t : Tag} (h : t.isSound = true) :
    ∀ a ∈ t.attributes, a.isSound = true := by
  intro a ha
  obtain ⟨-, -, hattributes⟩ := isSound_iff.1 h
  split at hattributes
  · rw [hattributes] at ha
    cases ha
  · exact List.all_eq_true.1 hattributes a ha

def ofBody? : Text → Option Tag
  | '/' :: name => if isName name then some (.stop name) else none
  | s =>
    let name := s.takeWhile isNameChar
    if name.isEmpty then none
    else (Attribute.list? (s.dropWhile isNameChar)).map (.start name)

theorem body_stop (name : Text) : (stop name).body = '/' :: name := rfl

theorem body_start (name : Text) (as : List Attribute) :
    (start name as).body = name ++ Attribute.sources as := rfl

theorem ofBody?_of_ne {c : Char} {s : Text} (hc : c ≠ '/') :
    ofBody? (c :: s) =
      let name := (c :: s).takeWhile isNameChar
      if name.isEmpty then none
      else (Attribute.list? ((c :: s).dropWhile isNameChar)).map (.start name) := by
  rw [ofBody?.eq_def]
  split
  · next name heq => exact absurd (List.cons.inj heq).1 hc
  · rfl

theorem span_name_sources {name : Text} (hname : name.all isNameChar = true)
    (as : List Attribute) :
    (name ++ Attribute.sources as).takeWhile isNameChar = name ∧
      (name ++ Attribute.sources as).dropWhile isNameChar = Attribute.sources as := by
  have hhead : (Attribute.sources as).takeWhile isNameChar = [] ∧
      (Attribute.sources as).dropWhile isNameChar = Attribute.sources as := by
    cases as with
    | nil => exact ⟨rfl, rfl⟩
    | cons a as =>
      obtain ⟨s, hs⟩ := a.source_eq_cons
      rw [Attribute.sources_cons, hs]
      exact ⟨rfl, rfl⟩
  have hall : ∀ c ∈ name, isNameChar c = true := by simpa using hname
  refine ⟨?_, ?_⟩
  · rw [List.takeWhile_append_of_pos hall, hhead.1, List.append_nil]
  · rw [List.dropWhile_append_of_pos hall, hhead.2]

theorem ofBody?_body {t : Tag} (h : t.isSound = true) : ofBody? t.body = some t := by
  obtain ⟨hne, hchars, has⟩ := isSound_iff.1 h
  obtain ⟨closing, name, as⟩ := t
  cases closing with
  | true =>
    obtain rfl : as = [] := by simpa using has
    have hname : isName name = true := by simp [isName, hne, hchars]
    simp [body_stop, ofBody?, hname]
  | false =>
    simp only at hne hchars
    obtain ⟨c, s, rfl⟩ := List.exists_cons_of_ne_nil hne
    obtain ⟨htake, hdrop⟩ := span_name_sources hchars as
    have hc : c ≠ '/' := by
      rintro rfl
      simp [isNameChar] at hchars
    rw [body_start, List.cons_append, ofBody?_of_ne hc, ← List.cons_append]
    simp only [htake, hdrop]
    simpa using Attribute.list?_sources has

theorem body_of_ofBody? {s : Text} {t : Tag} (h : ofBody? s = some t) :
    s = t.body ∧ t.isSound = true := by
  unfold ofBody? at h
  split at h
  · next name =>
    split at h
    · next hname =>
      obtain rfl := Option.some.inj h
      exact ⟨rfl, by simpa [isSound] using hname⟩
    · cases h
  · simp only at h
    split at h
    · cases h
    · next hne =>
      obtain ⟨as, has, rfl⟩ := Option.map_eq_some_iff.1 h
      obtain ⟨hdrop, hsound⟩ := Attribute.list?_eq_some_iff.1 has
      refine ⟨?_, ?_⟩
      · rw [body_start, ← hdrop, List.takeWhile_append_dropWhile]
      · have hname : (s.takeWhile isNameChar).all isNameChar = true := List.all_takeWhile
        have hname : isName (s.takeWhile isNameChar) = true := by simp [isName, hne, hname]
        simp [isSound, hname, hsound]

theorem body_eq_cons {t : Tag} (h : t.isSound = true) : ∃ c s, t.body = c :: s ∧ c ≠ '!' := by
  obtain ⟨hne, hchars, -⟩ := isSound_iff.1 h
  obtain ⟨closing, name, as⟩ := t
  cases closing with
  | true => exact ⟨'/', name, rfl, by decide⟩
  | false =>
    obtain ⟨c, s, rfl⟩ := List.exists_cons_of_ne_nil hne
    refine ⟨c, s ++ Attribute.sources as, rfl, ?_⟩
    rintro rfl
    simp [isNameChar] at hchars

theorem isPlain_body {t : Tag} (h : t.isSound = true) : isPlain t.body = true := by
  obtain ⟨-, hchars, has⟩ := isSound_iff.1 h
  obtain ⟨closing, name, as⟩ := t
  have hname : isPlain name = true := isPlain_of_all (by decide) (by decide) hchars
  cases closing with
  | true =>
    show isPlain ('/' :: name) = true
    simp [isBracket, hname]
  | false => simp [body_start, hname, Attribute.isPlain_sources (by simpa using has)]

/-- The reader accepts exactly the bodies of sound tags. -/
theorem ofBody?_eq_some_iff {s : Text} {t : Tag} :
    ofBody? s = some t ↔ s = t.body ∧ t.isSound = true := by
  constructor
  · exact body_of_ofBody?
  · rintro ⟨rfl, h⟩
    exact ofBody?_body h

end Tag

end Galley.Html
