import Galley.Html.Escape
import Galley.Proofs.Document.Token
import Mathlib.Data.List.Find
import Mathlib.Data.List.Induction
import Mathlib.Data.List.Nodup
import Mathlib.Data.List.TakeWhile

/-!
# Lists of tags

A single value of `tags` is read as a list, and each of its tags becomes an item. A tag that stands
in the list twice is dropped, but the entries are compared as they are written, while an item shows
its tag without quotes, line ends and blanks. Since a written value can be read back
(`unescape_markup`), two items are equal exactly if their tags show the same text, so the items are
distinct exactly if the entries that are kept show different texts (`attributeHtml_tagList`).
-/

namespace Galley

namespace Text

/-! ## Trimming -/

/-- Whether `f` takes a text apart at each blank and keeps the blank. -/
structure KeepsBlanks (f : Text → Text) : Prop where
  nil : f [] = []
  blank : ∀ {c : Char}, isBlank c = true → ∀ s t, f (s ++ c :: t) = f s ++ c :: f t

theorem trim_blanks_append {before after : Text} (hbefore : before.all isBlank = true)
    (hafter : after.all isBlank = true) (s : Text) : trim (before ++ (s ++ after)) = trim s := by
  rw [List.all_eq_true] at hbefore
  rw [trim, trim, trimStart, List.dropWhile_append_of_pos hbefore, List.dropWhile_append]
  split
  · next hempty =>
    have hnothing : after.dropWhile isBlank = [] :=
      List.dropWhile_eq_nil_iff.2 (List.all_eq_true.1 hafter)
    rw [hnothing, trimStart, List.isEmpty_iff.1 hempty]
  · exact dropEndWhile_append_of_all _ hafter

theorem hasPrefix_append_cons {p : Text} {c : Char} (hc : c ∉ p) (s t : Text) :
    hasPrefix p (s ++ c :: t) = hasPrefix p s := by
  rw [Bool.eq_iff_iff, hasPrefix_iff, hasPrefix_iff]
  constructor
  · rintro ⟨rest, hrest⟩
    obtain ⟨v, hv⟩ := prefix_of_prefix_append_cons hc ⟨rest, hrest.symm⟩
    exact ⟨v, hv.symm⟩
  · rintro ⟨v, rfl⟩
    exact ⟨v ++ c :: t, List.append_assoc _ _ _⟩

theorem KeepsBlanks.trim {f : Text → Text} (h : KeepsBlanks f) (s : Text) :
    Text.trim (f (Text.trim s)) = Text.trim (f s) := by
  have hstart (t : Text) {b : Text} (hb : b.all isBlank = true) : f (b ++ t) = b ++ f t := by
    induction b with
    | nil => rfl
    | cons c b ih =>
      rw [List.all_cons, Bool.and_eq_true] at hb
      have hfirst := h.blank hb.1 [] (b ++ t)
      rwa [h.nil, ih hb.2] at hfirst
  have hend (t : Text) {b : Text} (hb : b.all isBlank = true) : f (t ++ b) = f t ++ b := by
    cases b with
    | nil => rw [List.append_nil, List.append_nil]
    | cons c b =>
      rw [List.all_cons, Bool.and_eq_true] at hb
      have hrest : f b = b := by simpa [h.nil] using hstart [] hb.2
      rw [h.blank hb.1, hrest]
  obtain ⟨before, after, hbefore, hafter, hs⟩ := exists_append_trim s
  have hparts : f s = before ++ (f (Text.trim s) ++ after) := by
    rw [← hend _ hafter, ← hstart _ hbefore, ← hs]
  rw [hparts, trim_blanks_append hbefore hafter]

end Text

namespace Document.Token

open Text (eraseDups_concat nodup_eraseDups)

/-! ## What a value shows -/

/-- What the end of a line becomes in a value: a newline is a space, a carriage return nothing. -/
def lineChar (c : Char) : Text := if c = '\r' then [] else if c = '\n' then " " else [c]

/-- The text that a value shows: without its quotes, without line ends, trimmed. -/
def shownText (value : Text) : Text := Text.trim ((Text.unquote value).flatMap lineChar)

def markupChar (c : Char) : Text := if c = '\x7b' then "&#123;" else Html.escapeChar c

def markup (s : Text) : Text := convertDashes (s.flatMap markupChar)

theorem valueChar_eq (c : Char) : valueChar c = (lineChar c).flatMap markupChar := by
  by_cases hreturn : c = '\r'
  · rw [hreturn]
    rfl
  by_cases hnewline : c = '\n'
  · rw [hnewline]
    rfl
  by_cases hbrace : c = '\x7b'
  · rw [hbrace]
    rfl
  have hline : (lineChar c).flatMap markupChar = Html.escapeChar c := by
    simp [lineChar, markupChar, hreturn, hnewline, hbrace]
  rw [hline, valueChar, if_neg hreturn, if_neg hnewline, if_neg hbrace, Html.escapeChar]

theorem valueHtml_eq_markup (value : Text) :
    valueHtml value = Text.trim (markup ((Text.unquote value).flatMap lineChar)) := by
  rw [valueHtml, markup, List.flatMap_assoc]
  simp only [← valueChar_eq]

/-! ## Reading a written value -/

/-- The entities of written values, with what each stands for. -/
def entities : List (Text × Text) :=
  [("&amp;", "&"), ("&lt;", "<"), ("&gt;", ">"), ("&quot;", "\""), ("&#39;", "'"),
    ("&#123;", "\x7b"), ("&mdash;", "---"), ("&ndash;", "--")]

def unescapeFrom : Nat → Text → Text
  | _, [] => []
  | skip + 1, _ :: s => unescapeFrom skip s
  | 0, c :: s =>
    match entities.find? (Text.hasPrefix ·.1 (c :: s)) with
    | some (entity, text) => text ++ unescapeFrom (entity.length - 1) s
    | none => c :: unescapeFrom 0 s

def unescape (s : Text) : Text := unescapeFrom 0 s

theorem unescape_entity : ∀ e ∈ entities, ∀ s, unescape (e.1 ++ s) = e.2 ++ unescape s := by
  simp only [entities, List.forall_mem_cons]
  refine ⟨?_, ?_, ?_, ?_, ?_, ?_, ?_, ?_, fun e he => absurd he List.not_mem_nil⟩
  all_goals exact fun s => rfl

theorem unescape_cons {c : Char} (hc : c ≠ '&') (s : Text) :
    unescape (c :: s) = c :: unescape s := by
  have hstart : ∀ e ∈ entities, e.1.head? = some '&' := by decide
  have hnone : entities.find? (Text.hasPrefix ·.1 (c :: s)) = none := by
    rw [List.find?_eq_none]
    intro e he hstarts
    obtain ⟨rest, hrest⟩ := Text.hasPrefix_iff.1 hstarts
    obtain ⟨t, ht⟩ := List.head?_eq_some_iff.1 (hstart e he)
    rw [ht] at hrest
    exact hc (List.cons.inj hrest).1
  rw [unescape, unescapeFrom, hnone]
  rfl

theorem markupChar_cases (c : Char) :
    (markupChar c, [c]) ∈ entities ∨ markupChar c = [c] ∧ c ≠ '&' := by
  unfold markupChar Html.escapeChar
  split
  · next h => subst h; exact .inl (by decide)
  split
  · next h => subst h; exact .inl (by decide)
  split
  · next h => subst h; exact .inl (by decide)
  split
  · next h => subst h; exact .inl (by decide)
  split
  · next h => subst h; exact .inl (by decide)
  split
  · next h => subst h; exact .inl (by decide)
  · next hampersand _ _ _ _ => exact .inr ⟨rfl, hampersand⟩

theorem unescape_markupChar (c : Char) (s : Text) :
    unescape (markupChar c ++ s) = c :: unescape s := by
  rcases markupChar_cases c with hentity | ⟨hchar, hampersand⟩
  · exact unescape_entity _ hentity s
  · rw [hchar]
    exact unescape_cons hampersand s

theorem unescape_dashes (n : Nat) (s : Text) :
    unescape (List.replicate n '-' ++ s) = List.replicate n '-' ++ unescape s := by
  induction n with
  | zero => rfl
  | succ n ih =>
    rw [List.replicate_succ, List.cons_append, unescape_cons (by decide), ih]
    rfl

theorem unescape_dashRun (n : Nat) (s : Text) :
    unescape (dashRun n ++ s) = List.replicate n '-' ++ unescape s := by
  unfold dashRun
  split
  · next h => subst h; exact unescape_entity ("&mdash;", "---") (by decide) s
  split
  · next h => subst h; exact unescape_entity ("&ndash;", "--") (by decide) s
  · exact unescape_dashes n s

theorem convertDashesFrom_append {w : Text} (hw : '-' ∉ w) (hne : w ≠ []) (run : Nat) (s : Text) :
    convertDashesFrom run (w ++ s) = dashRun run ++ (w ++ convertDashes s) := by
  induction w generalizing run with
  | nil => exact absurd rfl hne
  | cons c w ih =>
    rw [List.mem_cons, not_or] at hw
    rw [List.cons_append, convertDashesFrom, if_neg (Ne.symm hw.1)]
    cases w with
    | nil => rfl
    | cons d w =>
      rw [ih hw.2 (List.cons_ne_nil d w)]
      rfl

theorem convertDashesFrom_append_append {w : Text} (hw : '-' ∉ w) (hne : w ≠ []) (run : Nat)
    (a b : Text) :
    convertDashesFrom run (a ++ (w ++ b)) = convertDashesFrom run a ++ (w ++ convertDashes b) := by
  induction a generalizing run with
  | nil => exact convertDashesFrom_append hw hne run b
  | cons c a ih =>
    rw [List.cons_append, convertDashesFrom, convertDashesFrom]
    split
    · exact ih (run + 1)
    · rw [ih, List.append_assoc, List.cons_append]

theorem unescape_convertDashesFrom (run : Nat) (s : Text) :
    unescape (convertDashesFrom run (s.flatMap markupChar)) = List.replicate run '-' ++ s := by
  induction s generalizing run with
  | nil =>
    have hrun := unescape_dashRun run []
    rwa [List.append_nil] at hrun
  | cons c s ih =>
    rw [List.flatMap_cons]
    by_cases hc : c = '-'
    · rw [hc]
      show unescape (convertDashesFrom (run + 1) (s.flatMap markupChar)) = _
      rw [ih, List.replicate_succ', List.append_assoc]
      rfl
    · have hword : '-' ∉ markupChar c ∧ markupChar c ≠ [] := by
        have hentities : ∀ e ∈ entities, '-' ∉ e.1 ∧ e.1 ≠ [] := by decide
        rcases markupChar_cases c with hentity | ⟨hchar, -⟩
        · exact hentities _ hentity
        · rw [hchar]
          exact ⟨fun hmem => hc (List.mem_singleton.1 hmem).symm, List.cons_ne_nil c []⟩
      rw [convertDashesFrom_append hword.1 hword.2, unescape_dashRun, unescape_markupChar,
        convertDashes, ih]
      rfl

/-- Writing a text is undone by reading it. -/
theorem unescape_markup (s : Text) : unescape (markup s) = s := unescape_convertDashesFrom 0 s

/-! ## Values that show the same -/

theorem keepsBlanks_markup : Text.KeepsBlanks markup where
  nil := rfl
  blank := by
    intro c hc s t
    have hchar : markupChar c = [c] := by
      have hentities : ∀ e ∈ entities, e.2.all (!Text.isBlank ·) = true := by decide
      rcases markupChar_cases c with hentity | ⟨hchar, -⟩
      · have hshown := hentities _ hentity
        simp [hc] at hshown
      · exact hchar
    have hdash : '-' ∉ [c] := by
      rw [List.mem_singleton]
      rintro rfl
      exact absurd hc (by decide)
    rw [markup, List.flatMap_append, List.flatMap_cons, hchar]
    exact convertDashesFrom_append_append hdash (List.cons_ne_nil c []) 0 _ _

theorem unescapeFrom_append_cons {c : Char} (hc : Text.isBlank c = true) (s t : Text) (skip : Nat)
    (hskip : skip ≤ s.length) :
    unescapeFrom skip (s ++ c :: t) = unescapeFrom skip s ++ c :: unescape t := by
  have hentities : ∀ e ∈ entities, e.1.all (!Text.isBlank ·) = true := by decide
  have hnot : ∀ e ∈ entities, c ∉ e.1 := by
    intro e he hmem
    have hchar := List.all_eq_true.1 (hentities e he) c hmem
    simp [hc] at hchar
  induction s generalizing skip with
  | nil =>
    obtain rfl : skip = 0 := Nat.le_zero.1 hskip
    have hampersand : c ≠ '&' := by
      rintro rfl
      exact absurd hc (by decide)
    exact unescape_cons hampersand t
  | cons d s ih =>
    cases skip with
    | succ skip => exact ih skip (Nat.le_of_succ_le_succ hskip)
    | zero =>
      have hfound : entities.find? (Text.hasPrefix ·.1 (d :: s ++ c :: t)) =
          entities.find? (Text.hasPrefix ·.1 (d :: s)) :=
        List.find?_congr fun e he => Text.hasPrefix_append_cons (hnot e he) (d :: s) t
      rw [List.cons_append, unescapeFrom, unescapeFrom, ← List.cons_append, hfound]
      cases hfind : entities.find? (Text.hasPrefix ·.1 (d :: s)) with
      | none =>
        show d :: unescapeFrom 0 (s ++ c :: t) = _
        rw [ih 0 (Nat.zero_le _)]
        rfl
      | some e =>
        have hstarts : Text.hasPrefix e.1 (d :: s) = true := by
          have hholds := List.find?_some hfind
          exact hholds
        obtain ⟨rest, hrest⟩ := Text.hasPrefix_iff.1 hstarts
        have hlength : s.length + 1 = e.1.length + rest.length := by
          rw [← List.length_append, ← hrest, List.length_cons]
        show e.2 ++ unescapeFrom (e.1.length - 1) (s ++ c :: t) = _
        rw [ih _ (by omega), ← List.append_assoc]

theorem keepsBlanks_unescape : Text.KeepsBlanks unescape where
  nil := rfl
  blank := fun hc s t => unescapeFrom_append_cons hc s t 0 (Nat.zero_le _)

theorem shownText_eq (value : Text) : shownText value = Text.trim (unescape (valueHtml value)) := by
  rw [valueHtml_eq_markup, keepsBlanks_unescape.trim, unescape_markup]
  rfl

theorem valueHtml_eq (value : Text) : valueHtml value = Text.trim (markup (shownText value)) := by
  rw [valueHtml_eq_markup, shownText, keepsBlanks_markup.trim]

/-- Two values are written alike exactly if they show the same text. -/
theorem valueHtml_eq_iff {a b : Text} : valueHtml a = valueHtml b ↔ shownText a = shownText b := by
  constructor
  · intro h
    rw [shownText_eq a, h, ← shownText_eq b]
  · intro h
    rw [valueHtml_eq a, h, ← valueHtml_eq b]

theorem valueHtml_eq_nil_iff {a : Text} : valueHtml a = [] ↔ shownText a = [] := by
  constructor
  · intro h
    rw [shownText_eq, h]
    rfl
  · intro h
    rw [valueHtml_eq, h]
    rfl

/-! ## Items -/

def listEntries (raw : Text) : List Text :=
  let inner := (Text.dropPrefix? "[" raw).getD raw
  (Text.splitOn "," ((Text.dropSuffix? "]" inner).getD inner)).map Text.trimStart

theorem splitTags_eq (raw : Text) :
    splitTags raw = ((listEntries raw).filter (!·.isEmpty)).eraseDups := by
  show (listEntries raw).foldl _ [] = _
  induction listEntries raw using List.reverseRecOn with
  | nil => rfl
  | append_singleton entries entry ih =>
    rw [List.foldl_concat, ih, List.filter_append]
    cases hempty : entry.isEmpty with
    | true => simp [hempty]
    | false =>
      have hone : [entry].filter (!·.isEmpty) = [entry] := by simp [hempty]
      rw [hone, eraseDups_concat]
      simp [hempty]

theorem itemHtml_inj {name a b : Text} :
    itemHtml name a = itemHtml name b ↔ valueHtml a = valueHtml b := by
  unfold itemHtml
  rw [List.append_cancel_right_eq, List.append_cancel_left_eq]

/-- The items of a list of tags stand in the order in which the entries first appear. They are
distinct exactly if the different entries show different texts, and none is empty exactly if each
entry shows a text. -/
theorem attributeHtml_tagList (raw : Text) :
    let tags := ((listEntries raw).filter (!·.isEmpty)).eraseDups
    let items := tags.map (itemHtml "tags")
    attributeHtml "tags" [raw] = Text.joinWith (delimiterHtml "tags") items ∧
      (items.Nodup ↔ ∀ a ∈ tags, ∀ b ∈ tags, shownText a = shownText b → a = b) ∧
      ((∀ tag ∈ tags, valueHtml tag ≠ []) ↔ ∀ tag ∈ tags, shownText tag ≠ []) := by
  intro tags items
  have hshown : shownValues "tags" [raw] = tags := splitTags_eq raw
  refine ⟨?_, ?_, ?_⟩
  · rw [attributeHtml, hshown]
  · have hdistinct : tags.Nodup := nodup_eraseDups _
    rw [List.nodup_map_iff_inj_on hdistinct]
    simp only [itemHtml_inj, valueHtml_eq_iff]
  · simp only [ne_eq, valueHtml_eq_nil_iff]

/-- A blank behind an entry keeps it apart from its copy, and quotes around nothing are no text. -/
theorem attributeHtml_blankBehind :
    attributeHtml "tags" ["[a , a]"] =
        itemHtml "tags" "a" ++ delimiterHtml "tags" ++ itemHtml "tags" "a" ∧
      attributeHtml "tags" ["['']"] = itemHtml "tags" [] := by
  decide

end Document.Token

end Galley
