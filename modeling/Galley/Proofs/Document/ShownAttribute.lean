import Galley.Proofs.Document.Attributes
import Galley.Proofs.Document.Container
import Galley.Proofs.Document.FrontMatter
import Galley.Proofs.Html.Element

/-!
# The finished container

Once its tokens are replaced, the container has an item for each shown attribute, in the order of
the attributes. Values are escaped, and the name of a shown attribute is that of a token, so the
tags of an item are those written around its values: the container opens `div` and `span` elements
only and closes each of them, and no token is left (`container_eq_flatMap_finishedItem`).
-/

namespace Galley

namespace Html

/-! ## Quotes -/

def swapQuote (c : Char) : Char := if c = '\'' then '"' else if c = '"' then '\'' else c

/-- The text with its single and double quotes exchanged. Either quote may enclose the value of an
attribute, but the reader of tags only takes double ones. -/
def swapQuotes (s : Text) : Text := s.map swapQuote

theorem swapQuotes_append (s t : Text) : swapQuotes (s ++ t) = swapQuotes s ++ swapQuotes t :=
  List.map_append

theorem isPlain_swapQuotes (s : Text) : isPlain (swapQuotes s) = isPlain s := by
  have hchar : ∀ c, isBracket (swapQuote c) = isBracket c := by
    intro c
    unfold swapQuote
    split
    · next h => subst h; rfl
    split
    · next h => subst h; rfl
    · rfl
  simp only [isPlain, swapQuotes, List.all_map, Function.comp_def, hchar]

theorem swapQuotes_eq_self {s : Text} (hsingle : '\'' ∉ s) (hdouble : '"' ∉ s) :
    swapQuotes s = s := by
  have hchar : ∀ c ∈ s, swapQuote c = c := by
    intro c hc
    have hne : c ≠ '\'' ∧ c ≠ '"' :=
      ⟨fun h => hsingle (h ▸ hc), fun h => hdouble (h ▸ hc)⟩
    rw [swapQuote, if_neg hne.1, if_neg hne.2]
  exact (List.map_congr_left hchar).trans (List.map_id s)

end Html

namespace Document

open Html (NestsOnly openTag swapQuotes)

/-! ## Values -/

namespace Token

variable {name : Text}

theorem swapQuotes_of_isIdentifier (h : isIdentifier name = true) : swapQuotes name = name := by
  have hall : name.all isNameChar = true := (Bool.and_eq_true_iff.1 h).2
  have hquote : ∀ c, isNameChar c = false → c ∉ name := by
    intro c hc hmem
    rw [List.all_eq_true.1 hall c hmem] at hc
    cases hc
  exact Html.swapQuotes_eq_self (hquote _ (by decide)) (hquote _ (by decide))

/-- A class that has the name of an attribute in it. -/
def classOf (before name behind : Text) : Html.Attribute :=
  ⟨"class", some (before ++ name ++ behind)⟩

theorem isSound_classOf (h : isIdentifier name = true) {before behind : Text}
    (hbefore : before.all Html.isValueChar = true) (hbehind : behind.all Html.isValueChar = true) :
    [classOf before name behind].all Html.Attribute.isSound = true := by
  rw [List.all_cons, List.all_nil, Bool.and_true]
  refine Html.isSound_of_key (by decide) ?_
  have hall : name.all Html.isValueChar = true := by
    rw [List.all_eq_true]
    intro c hc
    have hname : isNameChar c = true := List.all_eq_true.1 (Bool.and_eq_true_iff.1 h).2 c hc
    have hne : c ≠ '<' ∧ c ≠ '>' ∧ c ≠ '"' := by
      refine ⟨?_, ?_, ?_⟩ <;> rintro rfl <;> exact absurd hname (by decide)
    simp [Html.isValueChar, Html.isBracket, hne]
  rw [List.all_append, List.all_append, hbefore, hall, hbehind]
  rfl

theorem isPlain_valueHtml (value : Text) : Html.isPlain (valueHtml value) = true := by
  rw [Html.isPlain, List.all_eq_true]
  intro c hc
  have hne : c ≠ '<' ∧ c ≠ '>' := by
    refine ⟨?_, ?_⟩ <;> rintro rfl <;> exact not_mem_valueHtml (by decide) value hc
  simp [Html.isBracket, hne]

def elements : List Text := ["div", "span"]

theorem nestsOnly_itemHtml (h : isIdentifier name = true) (value : Text) :
    NestsOnly elements (swapQuotes (itemHtml name value)) := by
  have hparts : swapQuotes (itemHtml name value) =
      openTag "span" [classOf "post-item-" name ""] ++ swapQuotes (valueHtml value)
        ++ "</span>" := by
    unfold itemHtml openTag classOf
    simp only [Html.swapQuotes_append, swapQuotes_of_isIdentifier h]
    simp [Html.Attribute.source, scope, swapQuotes, Html.swapQuote]
  have hvalue : NestsOnly elements (swapQuotes (valueHtml value)) :=
    .of_isPlain ((Html.isPlain_swapQuotes _).trans (isPlain_valueHtml value))
  rw [hparts]
  exact .element "span" (by decide) (by decide) (by decide)
    (isSound_classOf h (by decide) (by decide)) hvalue

theorem nestsOnly_delimiterHtml (h : isIdentifier name = true) :
    NestsOnly elements (swapQuotes (delimiterHtml name)) := by
  have hparts : swapQuotes (delimiterHtml name) =
      openTag "span" [classOf "post-delimiter-" name " delimiter"] ++ ([] : Text)
        ++ ("</span>" : Text) := by
    unfold delimiterHtml openTag classOf
    simp only [Html.swapQuotes_append, swapQuotes_of_isIdentifier h]
    simp [Html.Attribute.source, scope, swapQuotes, Html.swapQuote]
  rw [hparts]
  exact .element "span" (by decide) (by decide) (by decide)
    (isSound_classOf h (by decide) (by decide)) (.of_isPlain rfl)

theorem nestsOnly_attributeHtml (h : isIdentifier name = true) (values : List Text) :
    NestsOnly elements (swapQuotes (attributeHtml name values)) := by
  have hjoin (sep : Text) (ts : List Text) : swapQuotes (Text.joinWith sep ts) =
      Text.joinWith (swapQuotes sep) (ts.map swapQuotes) := by
    induction ts with
    | nil => rfl
    | cons t ts ih =>
      cases ts with
      | nil => rfl
      | cons u ts =>
        show swapQuotes (t ++ sep ++ Text.joinWith sep (u :: ts)) = _
        rw [Html.swapQuotes_append, Html.swapQuotes_append, ih]
        rfl
  rw [attributeHtml, hjoin]
  refine .joinWith (nestsOnly_delimiterHtml h) ?_
  simp only [List.map_map, List.forall_mem_map]
  exact fun value _ => nestsOnly_itemHtml h value

end Token

/-! ## Items -/

namespace FrontMatter

/-- The item of an attribute, with its values. -/
def finishedItem (name : Text) (values : List Text) : Text :=
  "<div class='front-matter-item front-matter-container-" ++ name ++ "'>"
    ++ Token.attributeHtml name values ++ "\n</div>\n"

variable {name : Text}

theorem brace_not_mem_finishedItem (h : Token.isIdentifier name = true) (values : List Text) :
    '\x7b' ∉ finishedItem name values := by
  have hopening : '\x7b' ∉ ("<div class='front-matter-item front-matter-container-" : Text) := by
    decide
  have hname : '\x7b' ∉ name := Token.not_mem_of_isIdentifier (by decide) h
  have hvalues := Token.not_mem_attributeHtml (by decide) hname values
  have hclosing : '\x7b' ∉ ("\n</div>\n" : Text) := by decide
  unfold finishedItem
  simp only [List.mem_append, not_or]
  exact ⟨⟨⟨⟨hopening, hname⟩, by decide⟩, hvalues⟩, hclosing⟩

theorem nestsOnly_finishedItem (h : Token.isIdentifier name = true) (values : List Text) :
    NestsOnly Token.elements (swapQuotes (finishedItem name values)) := by
  have hparts : swapQuotes (finishedItem name values) =
      openTag "div" [Token.classOf "front-matter-item front-matter-container-" name ""]
        ++ (swapQuotes (Token.attributeHtml name values) ++ "\n") ++ "</div>" ++ "\n" := by
    unfold finishedItem openTag Token.classOf
    simp only [Html.swapQuotes_append, Token.swapQuotes_of_isIdentifier h]
    simp [Html.Attribute.source, swapQuotes, Html.swapQuote]
  have hinside : NestsOnly Token.elements (swapQuotes (Token.attributeHtml name values) ++ "\n") :=
    (Token.nestsOnly_attributeHtml h values).append (.of_isPlain (by decide))
  rw [hparts]
  exact (NestsOnly.element "div" (by decide) (by decide) (by decide)
    (Token.isSound_classOf h (by decide) (by decide)) hinside).append (.of_isPlain (by decide))

theorem nestsOnly_finishedItems {entries : List (Text × List Text)}
    (h : ∀ entry ∈ entries, Token.isIdentifier entry.1 = true) : NestsOnly Token.elements
      (swapQuotes (entries.flatMap fun entry => finishedItem entry.1 entry.2)) := by
  induction entries with
  | nil => exact .of_isPlain rfl
  | cons entry entries ih =>
    rw [List.forall_mem_cons] at h
    rw [List.flatMap_cons, Html.swapQuotes_append]
    exact (nestsOnly_finishedItem h.1 entry.2).append (ih h.2)

theorem substitute_item_of_get? {attrs : Attributes} {values : List Text}
    (h : Token.isIdentifier name = true) (hget : attrs.get? name = some values) (s : Text) :
    Token.substitute attrs (item name ++ s) =
      finishedItem name values ++ Token.substitute attrs s := by
  have hhtml : (Token.Piece.token name).substitute attrs = Token.attributeHtml name values := by
    simp only [Token.Piece.substitute, hget]
  rw [substitute_item attrs h, openingLine, hhtml]
  unfold finishedItem itemOpening
  simp

example : finishedItem "by" ["'>\x7b\x7b"] =
    "<div class='front-matter-item front-matter-container-by'>"
      ++ "<span class='post-item-by'>&#39;&gt;&#123;&#123;</span>\n</div>\n" := by
  decide +kernel

def shown (allowed : AllowedKeys) (attrs : Attributes) : List (Text × List Text) :=
  attrs.entries.filter fun entry => isShown allowed entry.1

theorem isIdentifier_of_mem_shown {allowed : AllowedKeys} {attrs : Attributes}
    {entry : Text × List Text} (h : entry ∈ shown allowed attrs) :
    Token.isIdentifier entry.1 = true := by
  have hshown : isShown allowed entry.1 = true := (List.mem_filter.1 h).2
  exact (Bool.and_eq_true_iff.1 hshown).2

theorem substitute_items {attrs : Attributes} (h : attrs.names.Nodup) (allowed : AllowedKeys) :
    Token.substitute attrs (items allowed attrs) =
      (shown allowed attrs).flatMap fun entry => finishedItem entry.1 entry.2 := by
  have hitems : items allowed attrs = (shown allowed attrs).flatMap fun entry => item entry.1 := by
    rw [items, shown, Attributes.names, List.filter_map, List.flatMap_map]
    rfl
  rw [hitems]
  -- each entry is looked up among all attributes, so the induction is on part of them
  have hget : ∀ entry ∈ shown allowed attrs, Token.isIdentifier entry.1 = true ∧
      attrs.get? entry.1 = some entry.2 := fun entry hentry =>
    ⟨isIdentifier_of_mem_shown hentry, Attributes.get?_of_mem h (List.mem_filter.1 hentry).1⟩
  generalize shown allowed attrs = entries at hget
  induction entries with
  | nil => rfl
  | cons entry entries ih =>
    rw [List.forall_mem_cons] at hget
    rw [List.flatMap_cons, List.flatMap_cons, substitute_item_of_get? hget.1.1 hget.1.2, ih hget.2]

theorem shown_ofMarkup {markup : Text} (h : Text.hasPrefix "---" markup = true)
    (allowed : AllowedKeys) : shown allowed (ofMarkup markup allowed false).attributes =
      shown allowed (extract markup) := by
  unfold ofMarkup
  split
  · rfl
  · next hunused =>
    cases hempty : allowed.isEmpty with
    | true => simp [shown, isShown, AllowedKeys.allows_of_isEmpty hempty]
    | false => exact absurd (isUsed_iff.2 ⟨⟨h, rfl⟩, .inl hempty⟩) hunused

theorem container_ofMarkup (markup : Text) (allowed : AllowedKeys) :
    (ofMarkup markup allowed false).container =
      items allowed (ofMarkup markup allowed false).attributes := by
  unfold ofMarkup
  split <;> rfl

theorem nodup_names_ofMarkup (markup : Text) (allowed : AllowedKeys) :
    (ofMarkup markup allowed false).attributes.names.Nodup := by
  unfold ofMarkup
  split
  · exact nodup_names_extract markup
  · exact List.nodup_nil

/-- The finished container of a document has the items of its shown attributes, in order and each
name once. No token is left in it, and its tags nest. -/
theorem container_eq_flatMap_finishedItem (markup : Text) (allowed : AllowedKeys)
    (hbegins : Text.hasPrefix "---" markup = true) :
    let matter := ofMarkup markup allowed false
    let container := Token.substitute matter.attributes matter.container
    let entries := matter.attributes.entries.filter fun entry =>
      allowed.allows entry.1 && Token.isIdentifier entry.1
    container = (entries.flatMap fun entry => finishedItem entry.1 entry.2) ∧
      entries = ((extract markup).entries.filter fun entry =>
        allowed.allows entry.1 && Token.isIdentifier entry.1) ∧
      (entries.map (·.1)).Nodup ∧
      '\x7b' ∉ container ∧ Token.occursIn container = false ∧
      NestsOnly ["div", "span"] (swapQuotes container) ∧
      Html.isNested (swapQuotes container) = true := by
  intro matter container entries
  have hnodup := nodup_names_ofMarkup markup allowed
  have hcontainer : container = entries.flatMap fun entry => finishedItem entry.1 entry.2 := by
    show Token.substitute matter.attributes (ofMarkup markup allowed false).container = _
    rw [container_ofMarkup]
    exact substitute_items hnodup allowed
  have hidentifier : ∀ entry ∈ entries, Token.isIdentifier entry.1 = true :=
    fun _ => isIdentifier_of_mem_shown
  have hbrace : '\x7b' ∉ container := by
    rw [hcontainer]
    intro hmem
    obtain ⟨entry, hentry, hmem⟩ := List.mem_flatMap.1 hmem
    exact brace_not_mem_finishedItem (hidentifier entry hentry) entry.2 hmem
  have hnests : NestsOnly Token.elements (swapQuotes container) := by
    rw [hcontainer]
    exact nestsOnly_finishedItems hidentifier
  refine ⟨hcontainer, shown_ofMarkup hbegins allowed, ?_, hbrace, ?_, hnests, hnests.isNested⟩
  · have hsublist : entries.Sublist matter.attributes.entries := List.filter_sublist
    exact hnodup.sublist (hsublist.map (·.1))
  · rw [← Bool.not_eq_true, Token.occursIn_iff]
    rintro ⟨name, -, hwritten⟩
    have hmem : '\x7b' ∈ Token.written name := by simp [Token.written, Token.opening]
    exact hbrace ((Text.hasInfix_iff.1 hwritten).subset hmem)

/-- Front matter whose values hold quotes, brackets and a token. -/
def quotedMatter : Text :=
  "---\ntitle: \"'><b>\x7b\x7b post.tags \x7d\x7d\"\ntags: '[a, b, a]'\nby line: c\n---\n"

theorem container_quotedMatter :
    let matter := ofMarkup quotedMatter .all false
    let container := Token.substitute matter.attributes matter.container
    let entries := (extract quotedMatter).entries.filter fun entry => Token.isIdentifier entry.1
    Text.hasPrefix "---" quotedMatter = true ∧
      entries = ([("title", ["'><b>\x7b\x7b post.tags \x7d\x7d"]), ("tags", ["[a, b, a]"])] :
        List (Text × List Text)) ∧
      container = (entries.flatMap fun entry => finishedItem entry.1 entry.2) ∧
      Token.occursIn container = false ∧ NestsOnly ["div", "span"] (swapQuotes container) := by
  intro matter container entries
  have hbegins : Text.hasPrefix "---" quotedMatter = true := by decide
  obtain ⟨hcontainer, hentries, -, -, htoken, hnests, -⟩ :=
    container_eq_flatMap_finishedItem quotedMatter .all hbegins
  exact ⟨hbegins, by decide +kernel, hcontainer.trans (congrArg _ hentries), htoken, hnests⟩

end FrontMatter

end Document

end Galley
