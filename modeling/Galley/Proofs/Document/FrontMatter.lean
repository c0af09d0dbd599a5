import Galley.Document.Conversion
import Galley.Proofs.Document.AutoToc
import Galley.Proofs.Document.Feature
import Galley.Proofs.Document.Substitution

/-!
# Front matter that is not read

Front matter is left unread where nothing is shown and the given markup holds no token. The tokens
are replaced later, in a markup that may have escaped dollars and an inserted table of contents.
Neither of the two makes a token: a token has no dollar and no backslash, and it lies within a line.
So a conversion that reads the front matter of every document has the same result
(`convert_eq_eager`).
-/

namespace Galley.Document

/-! ## Texts without tokens -/

namespace Token

variable {s : Text}

theorem occursIn_cons {c : Char} (h : atStart? (c :: s) = none) :
    occursIn (c :: s) = occursIn s := by
  simp [occursIn, pieces_cons h, Piece.isToken]

theorem occursIn_written {name : Text} (h : isIdentifier name = true) (s : Text) :
    occursIn (written name ++ s) = true := by
  simp [occursIn, pieces_written h, Piece.isToken]

theorem occursIn_iff :
    occursIn s = true ↔ ∃ name, isIdentifier name = true ∧ Text.hasInfix (written name) s = true := by
  simp only [Text.hasInfix_iff]
  induction s using read_induction with
  | nil => simp [occursIn, pieces, piecesFrom, written, opening]
  | token name s hname ih =>
    have hpart : written name <:+: written name ++ s := (List.prefix_append _ _).isInfix
    exact iff_of_true (occursIn_written hname s) ⟨name, hname, hpart⟩
  | plain c s hstart ih =>
    rw [occursIn_cons hstart, ih]
    apply exists_congr
    intro name
    apply and_congr_right
    intro hname
    constructor
    · exact List.infix_cons
    · intro h
      rcases List.infix_cons_iff.1 h with ⟨rest, hrest⟩ | hpart
      · rw [atStart?_eq_some_iff.2 ⟨hname, rest, hrest.symm⟩] at hstart
        cases hstart
      · exact hpart

theorem substitute_of_not_occursIn (attrs : Attributes) (h : occursIn s = false) :
    substitute attrs s = s := by
  induction s using read_induction with
  | nil => rfl
  | token name s hname ih =>
    rw [occursIn_written hname] at h
    cases h
  | plain c s hstart ih =>
    rw [occursIn_cons hstart] at h
    rw [substitute_cons hstart, ih h]

theorem occursIn_congr {s t : Text} (h : ∀ name, isIdentifier name = true →
    Text.hasInfix (written name) s = Text.hasInfix (written name) t) :
    occursIn s = occursIn t := by
  rw [Bool.eq_iff_iff, occursIn_iff, occursIn_iff]
  apply exists_congr
  intro name
  apply and_congr_right
  intro hname
  rw [h name hname]

theorem occursIn_escapeDollars (markup : Text) : occursIn (escapeDollars markup) = occursIn markup := by
  apply occursIn_congr
  intro name hname
  apply hasInfix_escapeDollars
  · simp [written, opening]
  · exact not_mem_written (by decide) (by decide) (by decide) hname
  · exact not_mem_written (by decide) (by decide) (by decide) hname

end Token

namespace AutoToc

/-- An inserted marker neither creates nor destroys a text that lies within a line and is not part
of the marker. -/
theorem isInfix_place_iff {w : Text} (hnewline : '\n' ∉ w) (hmarker : ¬ w <:+: marker)
    (markup : Text) : w <:+: (place markup).1 ↔ w <:+: markup := by
  obtain ⟨before, inserted, after, hplacement, -, hmarkup, hplace⟩ := exists_placement markup
  have hnil : ¬ w <:+: [] := fun h => hmarker (h.trans List.nil_infix)
  have hbehind (s : Text) : w <:+: marker ++ s ↔ w <:+: s := by
    have hends : marker ++ s = ("[TOC]: # ''\n  " : Text) ++ '\n' :: s := rfl
    have hline : ¬ w <:+: ("[TOC]: # ''\n  " : Text) :=
      fun h => hmarker (h.trans (List.prefix_append _ ['\n']).isInfix)
    rw [hends, Text.isInfix_append_cons_iff hnewline]
    exact or_iff_right hline
  rw [hplace, hmarkup]
  cases hplacement with
  | atStart => exact hbehind after
  | behindBlock _ hblock =>
    obtain ⟨b, rfl⟩ := Text.hasSuffix_iff.1 hblock
    have hbreak : b ++ ['\n'] ++ (['\n'] ++ marker) ++ after =
        b ++ '\n' :: ([] ++ '\n' :: (marker ++ after)) := by simp
    have hkept : b ++ ['\n'] ++ after = b ++ '\n' :: after := by simp
    change w <:+: b ++ ['\n'] ++ (['\n'] ++ marker) ++ after ↔ w <:+: b ++ ['\n'] ++ after
    rw [hbreak, hkept, Text.isInfix_append_cons_iff hnewline, Text.isInfix_append_cons_iff hnewline,
      Text.isInfix_append_cons_iff hnewline, hbehind, or_iff_right hnil]
  | atEnd _ =>
    have hbreaks : before ++ (['\n', '\n'] ++ marker) ++ [] =
        before ++ '\n' :: ([] ++ '\n' :: marker) := by simp
    change w <:+: before ++ (['\n', '\n'] ++ marker) ++ [] ↔ w <:+: before ++ []
    rw [hbreaks, List.append_nil, Text.isInfix_append_cons_iff hnewline,
      Text.isInfix_append_cons_iff hnewline, or_iff_right hnil, or_iff_left hmarker]

theorem occursIn_insert (auto : AutoToc) (markup : Text) (presentation : Bool)
    (folder : Option Text) :
    Token.occursIn (auto.insert markup presentation folder).1 = Token.occursIn markup := by
  unfold insert
  split
  · apply Token.occursIn_congr
    intro name hname
    rw [Bool.eq_iff_iff, Text.hasInfix_iff, Text.hasInfix_iff]
    apply isInfix_place_iff
    · exact Token.not_mem_written (by decide) (by decide) (by decide) hname
    · intro h
      have hbrace : '\x7b' ∈ marker := by
        apply h.subset
        simp [Token.written, Token.opening]
      revert hbrace
      decide
  · rfl

end AutoToc

/-! ## Reading and not reading -/

theorem AllowedKeys.allows_of_isEmpty {allowed : AllowedKeys} (h : allowed.isEmpty = true)
    (name : Text) : allowed.allows name = false := by
  cases allowed with
  | all => cases h
  | only names =>
    obtain rfl : names = [] := List.isEmpty_iff.1 h
    rfl
  | none => rfl

namespace FrontMatter

theorem isUsed_iff {markup : Text} {allowed : AllowedKeys} {presentation : Bool} :
    isUsed markup allowed presentation = true ↔
      (Text.hasPrefix "---" markup = true ∧ presentation = false) ∧
        (allowed.isEmpty = false ∨ Token.occursIn markup = true) := by
  rw [isUsed, Bool.and_eq_true, Bool.and_eq_true, Bool.or_eq_true, Bool.not_eq_true',
    Bool.not_eq_true', and_comm (a := presentation = false)]

theorem filter_isShown_of_isEmpty {allowed : AllowedKeys} (h : allowed.isEmpty = true)
    (names : List Text) : names.filter (isShown allowed) = [] := by
  simp [isShown, AllowedKeys.allows_of_isEmpty h]

theorem items_of_isEmpty {allowed : AllowedKeys} (h : allowed.isEmpty = true)
    (attrs : Attributes) : items allowed attrs = [] := by
  unfold items
  rw [filter_isShown_of_isEmpty h, List.flatMap_nil]

/-- The front matter of a document that is no presentation, read also where nothing uses it. -/
def eager (markup : Text) (allowed : AllowedKeys) (presentation : Bool) : FrontMatter :=
  if !presentation && Text.hasPrefix "---" markup then
    let attributes := extract markup
    { attributes, container := items allowed attributes }
  else {}

/-- Front matter that is left unread would show nothing, and no token asks for it. -/
theorem ofMarkup_eq_or (markup : Text) (allowed : AllowedKeys) (presentation : Bool) :
    ofMarkup markup allowed presentation = eager markup allowed presentation ∨
      Token.occursIn markup = false ∧ ofMarkup markup allowed presentation = {} ∧
        (eager markup allowed presentation).container = [] := by
  unfold ofMarkup eager
  by_cases hbegins : (!presentation && Text.hasPrefix "---" markup) = true
  · by_cases huse : (!allowed.isEmpty || Token.occursIn markup) = true
    · left
      rw [isUsed, hbegins, huse]
      rfl
    · right
      obtain ⟨hempty, htoken⟩ : allowed.isEmpty = true ∧ Token.occursIn markup = false := by
        simpa using huse
      refine ⟨htoken, if_neg ?_, ?_⟩
      · rw [isUsed, hempty, htoken]
        simp
      · rw [if_pos hbegins]
        exact items_of_isEmpty hempty (extract markup)
  · left
    rw [Bool.not_eq_true] at hbegins
    rw [isUsed, hbegins, Bool.false_and]

end FrontMatter

theorem rewrite_congr {attrs attrs' : Attributes} {markup : Text}
    (h : Token.substitute attrs markup = Token.substitute attrs' markup) (options : Options) :
    rewrite options attrs markup = rewrite options attrs' markup := by
  unfold rewrite
  rw [h]

theorem prepare_eq_eager (options : Options) (path : Option Text) (markup : Text) :
    prepare options path markup = prepareWith FrontMatter.eager options path markup := by
  let draft := ({ markup } : Draft).applyFeatures options
  let presentation := draft.features.presentation
  let inserted := options.autoToc.insert draft.markup presentation (path.bind PathName.folderName?)
  have hprepare (matter : Text → AllowedKeys → Bool → FrontMatter) :
      prepareWith matter options path markup =
        ⟨rewrite options (matter markup options.allowedKeys presentation).attributes inserted.1,
          inserted.2,
          Token.substitute (matter markup options.allowedKeys presentation).attributes
            (matter markup options.allowedKeys presentation).container,
          draft.head, draft.onload, draft.features⟩ := rfl
  rw [prepare, hprepare, hprepare]
  rcases FrontMatter.ofMarkup_eq_or markup options.allowedKeys presentation with
    hsame | ⟨htoken, hunread, hcontainer⟩
  · rw [hsame]
  · have hdraft : Token.occursIn draft.markup = Token.occursIn markup := by
      rcases ({ markup } : Draft).markup_applyFeatures options with hkept | hescaped
      · exact congrArg Token.occursIn hkept
      · exact (congrArg Token.occursIn hescaped).trans (Token.occursIn_escapeDollars markup)
    have hnone : Token.occursIn inserted.1 = false := by
      rw [AutoToc.occursIn_insert, hdraft, htoken]
    -- without tokens no attribute is looked up, so it does not matter which ones were read
    have hrewrite (attrs attrs' : Attributes) :
        rewrite options attrs inserted.1 = rewrite options attrs' inserted.1 := by
      apply rewrite_congr
      rw [Token.substitute_of_not_occursIn attrs hnone,
        Token.substitute_of_not_occursIn attrs' hnone]
    rw [hunread, hcontainer, hrewrite]
    rfl

/-- Front matter that is left unread changes nothing: a conversion that always reads it has the same
result. -/
theorem convert_eq_eager (options : Options) (classes : TocClasses) (path : Option Text)
    (markup : Text) : convert options classes path markup =
      (prepareWith FrontMatter.eager options path markup).finish options classes := by
  rw [convert, prepare_eq_eager]

end Galley.Document
