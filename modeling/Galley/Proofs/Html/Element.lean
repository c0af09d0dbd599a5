import Galley.Html.Element
import Galley.Proofs.Html.Nesting

/-!
# The tags of the elements

Which tags the elements of a page have, with their attributes. Texts and values that come from the
document are escaped, so they add no tag and end no value.
-/

namespace Galley.Html

open Markdown (AlertKind)

/-! ## Escaped texts -/

/-- The entities of the characters that escaping changes. -/
def entities : List Text := ["&amp;", "&lt;", "&gt;", "&quot;", "&#39;"]

theorem escapeChar_mem_or (c : Char) :
    escapeChar c ∈ entities ∨ escapeChar c = [c] ∧ isValueChar c = true := by
  unfold escapeChar
  split
  · exact .inl (by decide)
  split
  · exact .inl (by decide)
  split
  · exact .inl (by decide)
  split
  · exact .inl (by decide)
  split
  · exact .inl (by decide)
  · next hlt hgt hquote _ =>
    exact .inr ⟨rfl, by simp [isValueChar, isBracket, hlt, hgt, hquote]⟩

theorem eq_of_escape_cons_eq {c d : Char} {s t : Text} (hd : d ≠ '&')
    (h : escape (c :: s) = d :: t) : c = d ∧ escape s = t := by
  rw [escape, List.flatMap_cons] at h
  rcases escapeChar_mem_or c with hmem | ⟨hc, -⟩
  · have hentities : ∀ entity ∈ entities, ∃ tail, entity = '&' :: tail := by simp [entities]
    obtain ⟨tail, htail⟩ := hentities _ hmem
    rw [htail] at h
    exact absurd (List.cons.inj h).1.symm hd
  · rw [hc] at h
    exact List.cons.inj h

theorem not_mem_escape {c : Char} (hc : ∀ entity ∈ entities, c ∉ entity) {s : Text} (h : c ∉ s) :
    c ∉ escape s := by
  intro hmem
  obtain ⟨d, hd, hchar⟩ := List.mem_flatMap.1 hmem
  rcases escapeChar_mem_or d with hentity | ⟨heq, -⟩
  · exact hc _ hentity hchar
  · rw [heq] at hchar
    exact h (List.mem_singleton.1 hchar ▸ hd)

theorem all_isValueChar_escapeChar (c : Char) : (escapeChar c).all isValueChar = true := by
  have hentities : ∀ entity ∈ entities, entity.all isValueChar = true := by decide
  rcases escapeChar_mem_or c with hmem | ⟨heq, hc⟩
  · exact hentities _ hmem
  · rw [heq, List.all_cons, hc]
    rfl

theorem all_isValueChar_escape (s : Text) : (escape s).all isValueChar = true := by
  induction s with
  | nil => rfl
  | cons c s ih =>
    rw [escape, List.flatMap_cons, List.all_append, all_isValueChar_escapeChar]
    exact ih

theorem isPlain_escape (s : Text) : isPlain (escape s) = true :=
  isPlain_of_all (by decide) (by decide) (all_isValueChar_escape s)

theorem all_isValueChar_ofNat (n : Nat) : (Text.ofNat n).all isValueChar = true := by
  have hdigits := Text.all_isDigit_ofNat n
  rw [List.all_eq_true] at hdigits ⊢
  intro c hc
  have hne : c ≠ '<' ∧ c ≠ '>' ∧ c ≠ '"' := by
    refine ⟨?_, ?_, ?_⟩ <;> rintro rfl <;> exact absurd (hdigits _ hc) (by decide)
  simp [isValueChar, isBracket, hne]

theorem isPlain_ofNat (n : Nat) : isPlain (Text.ofNat n) = true :=
  isPlain_of_all (by decide) (by decide) (all_isValueChar_ofNat n)

/-! ## Tags with attributes -/

def openTag (name : Text) (as : List Attribute) : Text :=
  "<" ++ name ++ Attribute.sources as ++ ">"

theorem source_start (name : Text) (as : List Attribute) :
    (Part.tag (.start name as)).source = openTag name as := by
  rw [Part.source, Tag.body_start, openTag]
  simp

theorem tags?_openTag (name : Text) {as : List Attribute} (hname : Tag.isName name = true)
    (has : as.all Attribute.isSound = true) :
    tags? (openTag name as) = some [.start name as] := by
  have hsound : (Tag.start name as).isSound = true := by simp [Tag.isSound, hname, has]
  rw [← tags?_tag hsound, Tag.body_start, openTag]
  simp

abbrev Attribute.escaped (key value : Text) : Attribute := ⟨key, some (escape value)⟩

abbrev Attribute.number (key : Text) (n : Nat) : Attribute := ⟨key, some (Text.ofNat n)⟩

def lineAttributes (line : Option Nat) : List Attribute := line.toList.map (.number "line")

def titleAttributes (title : Text) : List Attribute :=
  if title.isEmpty then [] else [.escaped "title" title]

def languageAttributes (language : Option Text) : List Attribute :=
  language.toList.map fun lang => ⟨"class", some ("language-" ++ escape lang)⟩

theorem sources_lineAttributes (line : Option Nat) :
    Attribute.sources (lineAttributes line) = lineAttr line := by
  cases line with
  | none => rfl
  | some n =>
    show Attribute.sources [⟨"line", some (Text.ofNat n)⟩] = " line=\"" ++ Text.ofNat n ++ "\""
    generalize Text.ofNat n = digits
    simp [Attribute.source]

theorem sources_titleAttributes (title : Text) :
    Attribute.sources (titleAttributes title) = titleAttr title := by
  unfold titleAttributes titleAttr
  split
  · rfl
  · simp [Attribute.source]

theorem isSound_of_key {key value : Text} (hkey : (⟨key, none⟩ : Attribute).isSound = true)
    (hvalue : value.all isValueChar = true) : (⟨key, some value⟩ : Attribute).isSound = true := by
  obtain ⟨hne, hall, -⟩ := Attribute.isSound_iff.1 hkey
  refine Attribute.isSound_iff.2 ⟨hne, hall, fun v hv => ?_⟩
  rwa [← Option.some.inj hv]

theorem isSound_escaped (key : Text) (hkey : (⟨key, none⟩ : Attribute).isSound = true)
    (value : Text) : (Attribute.escaped key value).isSound = true :=
  isSound_of_key hkey (all_isValueChar_escape value)

theorem isSound_number (key : Text) (hkey : (⟨key, none⟩ : Attribute).isSound = true) (n : Nat) :
    (Attribute.number key n).isSound = true :=
  isSound_of_key hkey (all_isValueChar_ofNat n)

theorem all_isSound_lineAttributes (line : Option Nat) :
    (lineAttributes line).all Attribute.isSound = true := by
  cases line with
  | none => rfl
  | some n =>
    have hline := isSound_number "line" (by decide) n
    rw [lineAttributes, Option.toList_some, List.map_singleton, List.all_cons, hline]
    rfl

theorem all_isSound_titleAttributes (title : Text) :
    (titleAttributes title).all Attribute.isSound = true := by
  unfold titleAttributes
  split
  · rfl
  · rw [List.all_cons, isSound_escaped "title" (by decide)]
    rfl

theorem all_isSound_languageAttributes (language : Option Text) :
    (languageAttributes language).all Attribute.isSound = true := by
  cases language with
  | none => rfl
  | some lang =>
    have hlang := all_isValueChar_escape lang
    have hvalue : ("language-" ++ escape lang).all isValueChar = true := by
      rw [List.all_append, hlang]
      decide
    have hclass := isSound_of_key (show (⟨"class", none⟩ : Attribute).isSound = true by decide) hvalue
    rw [languageAttributes, Option.toList_some, List.map_singleton, List.all_cons, hclass]
    rfl

/-! ## Elements -/

theorem codeBlock_eq (language : Option Text) (content : Text) (line : Option Nat) :
    codeBlock language content (lineAttr line) =
      openTag "pre" (lineAttributes line) ++ openTag "code" (languageAttributes language)
        ++ escape content ++ "</code></pre>\n" := by
  rw [← sources_lineAttributes]
  unfold codeBlock
  cases language <;> simp [openTag, languageAttributes, Attribute.source]

theorem tags?_codeBlock (language : Option Text) (content : Text) (line : Option Nat) :
    tags? (codeBlock language content (lineAttr line)) =
      some [.start "pre" (lineAttributes line), .start "code" (languageAttributes language),
        .stop "code", .stop "pre"] := by
  have hstop : tags? "</code></pre>\n" = some [.stop "code", .stop "pre"] := by decide
  have hpre := tags?_openTag "pre" (by decide) (all_isSound_lineAttributes line)
  have hcode := tags?_openTag "code" (by decide) (all_isSound_languageAttributes language)
  have htext := tags?_of_isPlain (isPlain_escape content)
  rw [codeBlock_eq]
  have hall := tags?_append (tags?_append (tags?_append hpre hcode) htext) hstop
  exact hall

theorem tags?_lineTag (name tail : Text) (hname : Tag.isName name = true)
    (htail : isPlain tail = true) (line : Option Nat) :
    tags? ("<" ++ name ++ lineAttr line ++ (">" ++ tail)) =
      some [.start name (lineAttributes line)] := by
  have hopen := tags?_openTag name hname (all_isSound_lineAttributes line)
  rw [openTag, sources_lineAttributes] at hopen
  have hall := tags?_append hopen (tags?_of_isPlain htail)
  rwa [List.append_assoc] at hall

theorem tags?_blockQuoteStart (line : Option Nat) :
    tags? (blockQuoteStart (lineAttr line)) = some [.start "blockquote" (lineAttributes line)] :=
  tags?_lineTag "blockquote" "\n" (by decide) (by decide) line

def alertAttribute (kind : AlertKind) : Attribute :=
  ⟨"class", some ("alert alert-" ++ alertClass kind)⟩

theorem tags?_alertStart (kind : AlertKind) (line : Option Nat) :
    tags? (alertStart kind (lineAttr line)) =
      some [.start "div" (alertAttribute kind :: lineAttributes line),
        .start "p" [⟨"class", some "alert-title"⟩], .stop "p"] := by
  have hparts : alertStart kind (lineAttr line) =
      openTag "div" (alertAttribute kind :: lineAttributes line)
        ++ ("<p class=\"alert-title\">" ++ alertTitle kind ++ "</p>\n") := by
    unfold alertStart alertAttribute
    simp [openTag, Attribute.source, sources_lineAttributes]
  have hclass : (alertAttribute kind).isSound = true := by cases kind <;> decide
  have hdiv : tags? (openTag "div" (alertAttribute kind :: lineAttributes line)) = _ :=
    tags?_openTag "div" (by decide) (by simp [hclass, all_isSound_lineAttributes])
  have htitle : tags? ("<p class=\"alert-title\">" ++ alertTitle kind ++ "</p>\n") =
      some [.start "p" [⟨"class", some "alert-title"⟩], .stop "p"] := by
    cases kind <;> decide
  rw [hparts]
  have hall := tags?_append hdiv htitle
  exact hall

theorem tags?_image (src alt title : Text) :
    tags? (image src alt title) =
      some [.start "img"
        (.escaped "src" src :: titleAttributes title ++ [.escaped "alt" alt, ⟨"/", none⟩])] := by
  have hparts : image src alt title = openTag "img"
      (.escaped "src" src :: titleAttributes title ++ [.escaped "alt" alt, ⟨"/", none⟩]) := by
    unfold image
    simp [openTag, Attribute.source, sources_titleAttributes]
  have hsrc := isSound_escaped "src" (by decide) src
  have halt := isSound_escaped "alt" (by decide) alt
  have hslash : (⟨"/", none⟩ : Attribute).isSound = true := by decide
  rw [hparts]
  refine tags?_openTag "img" (by decide) ?_
  rw [List.all_append, List.all_cons, hsrc, all_isSound_titleAttributes, List.all_cons, halt,
    List.all_cons, hslash]
  rfl

def mathElement (display : Bool) : Text × Text :=
  if display then ("div", "katex katex-display") else ("span", "katex")

theorem tags?_math (source : Text) (display : Bool) :
    tags? (math source display) =
      some [.start (mathElement display).1 [⟨"class", some (mathElement display).2⟩],
        .stop (mathElement display).1] := by
  have htext := tags?_of_isPlain (isPlain_escape source)
  cases display with
  | true =>
    have hstart : tags? "<div class=\"katex katex-display\">" =
        some [.start "div" [⟨"class", some "katex katex-display"⟩]] := by decide
    have hstop : tags? "</div>" = some [.stop "div"] := by decide
    have hall := tags?_append (tags?_append hstart htext) hstop
    exact hall
  | false =>
    have hstart : tags? "<span class=\"katex\">" =
        some [.start "span" [⟨"class", some "katex"⟩]] := by decide
    have hstop : tags? "</span>" = some [.stop "span"] := by decide
    have hall := tags?_append (tags?_append hstart htext) hstop
    exact hall

theorem tags?_code (code : Text) :
    tags? ("<code>" ++ escape code ++ "</code>") = some [.start "code" [], .stop "code"] := by
  have hstart : tags? "<code>" = some [.start "code" []] := by decide
  have hstop : tags? "</code>" = some [.stop "code"] := by decide
  have hall := tags?_append (tags?_append hstart (tags?_of_isPlain (isPlain_escape code))) hstop
  exact hall

/-! ## Elements of some names -/

/-- The tags of a text are nested, and they open and close elements of these names only. -/
def NestsOnly (names : List Text) (html : Text) : Prop :=
  ∃ ts, tags? html = some ts ∧ (∀ opened, openAfter? ts opened = some opened) ∧
    ∀ t ∈ ts, t.name ∈ names

namespace NestsOnly

variable {names : List Text} {a b : Text}

theorem of_isPlain (h : isPlain a = true) : NestsOnly names a :=
  ⟨[], tags?_of_isPlain h, fun _ => rfl, fun _ ht => nomatch ht⟩

theorem mono {names' : List Text} (hnames : names ⊆ names') (h : NestsOnly names a) :
    NestsOnly names' a := by
  obtain ⟨ts, hts, hopen, hall⟩ := h
  exact ⟨ts, hts, hopen, fun t ht => hnames (hall t ht)⟩

theorem append (ha : NestsOnly names a) (hb : NestsOnly names b) : NestsOnly names (a ++ b) := by
  obtain ⟨ts, hts, hopen, hnames⟩ := ha
  obtain ⟨us, hus, hopen', hnames'⟩ := hb
  refine ⟨ts ++ us, tags?_append hts hus, fun opened => ?_, ?_⟩
  · rw [openAfter?_append, hopen]
    exact hopen' opened
  · rw [List.forall_mem_append]
    exact ⟨hnames, hnames'⟩

theorem between {name start stop : Text} {ts : List Tag} (hstart : tags? start = some ts)
    (hopens : ∀ opened, openAfter? ts opened = some (name :: opened))
    (hnames : ∀ t ∈ ts, t.name ∈ names) (hstop : tags? stop = some [.stop name])
    (hmem : name ∈ names) (ha : NestsOnly names a) : NestsOnly names (start ++ a ++ stop) := by
  obtain ⟨us, hus, hopen, hinside⟩ := ha
  refine ⟨_, tags?_append (tags?_append hstart hus) hstop, fun opened => ?_, ?_⟩
  · rw [openAfter?_append, openAfter?_append, hopens, Option.bind_some, hopen]
    exact openAfter?_stop name [] opened
  · rw [List.forall_mem_append, List.forall_mem_append, List.forall_mem_singleton]
    exact ⟨⟨hnames, hinside⟩, hmem⟩

theorem within {name start stop : Text} {as : List Attribute}
    (hstart : tags? start = some [.start name as]) (hstop : tags? stop = some [.stop name])
    (hname : isElement name = true) (hmem : name ∈ names) (ha : NestsOnly names a) :
    NestsOnly names (start ++ a ++ stop) :=
  between hstart (openAfter?_start hname as []) (List.forall_mem_singleton.2 hmem) hstop hmem ha

theorem element (name : Text) {as : List Attribute} (hmem : name ∈ names)
    (hname : isElement name = true) (hsound : Tag.isName name = true)
    (has : as.all Attribute.isSound = true) (ha : NestsOnly names a) :
    NestsOnly names (openTag name as ++ a ++ ("</" ++ name ++ ">")) := by
  have hstop : tags? ("</" ++ name ++ ">") = some [.stop name] := by
    have htag : (Tag.stop name).isSound = true := by simp [Tag.isSound, hsound]
    exact tags?_tag htag
  exact within (tags?_openTag name hsound has) hstop hname hmem ha

theorem joinWith {ts : List Text} (hsep : NestsOnly names a)
    (hts : ∀ t ∈ ts, NestsOnly names t) : NestsOnly names (Text.joinWith a ts) := by
  induction ts with
  | nil => exact of_isPlain rfl
  | cons t ts ih =>
    rw [List.forall_mem_cons] at hts
    cases ts with
    | nil => exact hts.1
    | cons u ts => exact (hts.1.append hsep).append (ih hts.2)

theorem balanced (h : NestsOnly names a) : Balanced a := by
  obtain ⟨ts, hts, hopen, -⟩ := h
  exact fun opened => Walk.of_tags hts (hopen opened)

theorem isNested (h : NestsOnly names a) : isNested a = true := isNested_of_walk (h.balanced [])

end NestsOnly

end Galley.Html
