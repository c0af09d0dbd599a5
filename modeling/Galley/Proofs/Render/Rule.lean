import Galley.Proofs.Html.Cut
import Galley.Proofs.Render.EventTags
import Galley.Proofs.Render.Straight

/-!
# Where rules stand

A rule is written where it stands. On the page of a document without raw HTML and footnote
definitions, no element is open where a rule stands if the rule stands in no element
(`rulesOutside_forest`), and some element is open there if it stands in one
(`hasRule_forest`).
-/

namespace Galley.Markdown

/-- Whether rules may stand in the content, or in its elements. -/
def Content.mayHoldRules : Content → Bool
  | .blocks | .flow | .items | .definitions => true
  | .inlines | .table | .rows | .cells | .literal | .html => false

namespace Forest

/-- Whether no rule stands in an element. -/
def rulesAtTop : Forest → Bool
  | .nil => true
  | .leaf _ _ rest => rest.rulesAtTop
  | .element _ _ _ inner rest => !inner.events.contains .rule && rest.rulesAtTop

theorem rule_not_mem_events {c : Content} {f : Forest} (hfits : f.fits c = true)
    (hc : c.mayHoldRules = false) : .rule ∉ f.events := by
  induction f generalizing c with
  | nil => exact List.not_mem_nil
  | leaf e offset rest ih =>
    obtain ⟨hadmits, hrest⟩ := fits_leaf_iff.1 hfits
    have hne : .rule ≠ e := by
      rintro rfl
      cases c <;> first | exact absurd hc (by decide) | exact absurd hadmits (by decide)
    rw [events_leaf, List.mem_cons, not_or]
    exact ⟨hne, ih hrest hc⟩
  | element tag start stop inner rest ihInner ihRest =>
    obtain ⟨hholds, hinner, hrest⟩ := fits_element_iff.1 hfits
    have hcontent : tag.content.mayHoldRules = false := by
      cases c <;> first | exact absurd hc (by decide) | (cases tag <;> first | rfl | cases hholds)
    have hafter : c.after.mayHoldRules = false := by
      cases c <;> exact hc
    simp [ihInner hinner hcontent, ihRest hrest hafter]

theorem rulesAtTop_of_not_mem {f : Forest} (h : .rule ∉ f.events) : f.rulesAtTop = true := by
  induction f with
  | nil => rfl
  | leaf e offset rest ih =>
    rw [events_leaf, List.mem_cons, not_or] at h
    exact ih h.2
  | element tag start stop inner rest ihInner ihRest =>
    simp only [events_element, List.mem_cons, List.mem_append, not_or] at h
    obtain ⟨-, hinner, -, hrest⟩ := h
    simp [rulesAtTop, hinner, ihRest hrest]

end Forest

end Galley.Markdown

namespace Galley.Render.Renderer

open Html (Tagged Walk isElement openAfter? tags? visibleTags?)
open Markdown (Content Event Forest Tag)

/-! ## The tag of a rule -/

theorem headingName_ne_hr (level : Nat) : headingName level ≠ "hr" := by
  intro h
  have hlevel : Text.ofNat level = ['r'] := (List.cons.inj h).2
  have hdigit := Text.all_isDigit_ofNat level
  rw [hlevel] at hdigit
  exact absurd hdigit (by decide)

theorem ruleTag_not_mem_tagsOf (r : Renderer) {e : Event} (he : e ≠ .rule) (line : Option Nat) :
    ruleTag ∉ r.tagsOf line e := by
  cases e with
  | start tag =>
    cases tag with
    | blockQuote kind => cases kind <;> simp [tagsOf, startTags]
    | list start => cases start <;> simp [tagsOf, startTags, listName]
    | tableCell => cases hhead : r.table.inHead <;> simp [tagsOf, startTags, cellName, hhead]
    | _ => simp [tagsOf, startTags]
  | stop tag =>
    cases tag with
    | blockQuote kind =>
      simp only [tagsOf, stopTags]
      split <;> simp
    | codeBlock => simp [tagsOf, stopTags, codeTags]
    | image => simp [tagsOf, stopTags, imageTag]
    | _ => simp [tagsOf, stopTags]
  | inlineMath _ | displayMath _ => simp [tagsOf, mathTags, Html.mathElement]
  | footnoteReference _ => simp [tagsOf, Footnotes.referenceTags]
  | taskMarker checked => cases checked <;> simp [tagsOf]
  | rule => exact absurd rfl he
  | _ => simp [tagsOf]

/-! ## Rules outside of elements -/

/-- No element is open at the end of the text, or where a rule stands in it. -/
def RulesOutside (u : Text) : Prop :=
  ∃ ts, visibleTags? u = some ts ∧ openAfter? ts [] = some [] ∧
    ∀ as bs, ts = as ++ ruleTag :: bs → openAfter? as [] = some []

namespace RulesOutside

variable {u v : Text}

theorem append (hu : RulesOutside u) (hv : RulesOutside v) : RulesOutside (u ++ v) := by
  obtain ⟨ts, hts, hopen, hrules⟩ := hu
  obtain ⟨us, hus, hopen', hrules'⟩ := hv
  have hbehind : ∀ as, openAfter? (ts ++ as) [] = openAfter? as [] := by
    intro as
    rw [Html.openAfter?_append, hopen]
    rfl
  refine ⟨ts ++ us, Html.visibleTags?_append hts hus, (hbehind us).trans hopen', ?_⟩
  intro as bs heq
  rcases List.append_eq_append_iff.1 heq with ⟨ds, rfl, hds⟩ | ⟨ds, rfl, hds⟩
  · exact (hbehind ds).trans (hrules' ds bs hds)
  · cases ds with
    | nil => rwa [List.append_nil] at hopen
    | cons d ds =>
      obtain ⟨rfl, -⟩ := List.cons.inj hds
      exact hrules as ds rfl

theorem of_tagged (hwalk : Walk u [] []) (htagged : Tagged (· ≠ ruleTag) u) : RulesOutside u := by
  obtain ⟨ts, hts, hopen⟩ := hwalk
  obtain ⟨us, hus, hne⟩ := htagged
  rw [Html.visibleTags?_of_tags? hus] at hts
  obtain rfl := Option.some.inj hts
  refine ⟨us, Html.visibleTags?_of_tags? hus, hopen, ?_⟩
  rintro as bs rfl
  exact absurd rfl (hne ruleTag (by simp))

theorem nil : RulesOutside [] := of_tagged (Html.Balanced.nil []) Tagged.nil

theorem rule : RulesOutside Html.rule := by
  have htags : visibleTags? Html.rule = some [ruleTag] := by decide
  refine ⟨[ruleTag], htags, by decide, fun as bs heq => ?_⟩
  cases as with
  | nil => rfl
  | cons a as => simp at heq

end RulesOutside

/-! ## Documents -/

section documents

variable {c : Content} {r : Renderer} {f : Forest}

theorem tagged_output (hclosed : r.headings.openHtml = none) {es : List (Event × Option Nat)}
    (hes : ∀ e ∈ es, e.1.isRaw = false ∧ e.1.isNoteMark = false) (hrule : ∀ e ∈ es, e.1 ≠ .rule) :
    ∃ out, (r.steps es).output = r.output ++ out ∧ Tagged (· ≠ ruleTag) out := by
  have hheading : ∀ heading : Heading, Html.Tag.start (headingName heading.level)
      (headingAttributes heading) ≠ ruleTag := by
    intro heading heq
    exact headingName_ne_hr heading.level (Html.Tag.mk.inj heq).2.1
  have hpieces := (tagged_pieces (Q := (· ≠ ruleTag)) hheading (fun level => by simp) (r := r) []
    (fun opened hopened => by rw [hclosed] at hopened; cases hopened) (fun e he => (hes e he).1)
    (fun es₁ e line es₂ heq t ht => by
      rintro rfl
      exact ruleTag_not_mem_tagsOf _ (hrule (e, line) (by simp [heq])) line ht)).1
  exact ⟨_, output_steps r [] fun e he => (hes e he).2, tagged_flatMap hpieces⟩

theorem tagged_element (lineOf? : Option (Nat → Nat)) {tag : Tag} {inner rest : Forest}
    {start stop : Nat} (h : Straight c (.element tag start stop inner rest))
    (hrule : .rule ∉ inner.events) (hclosed : r.headings.openHtml = none) :
    ∃ out, (((r.startTag tag (lineOf?.map (· start))).steps (lined lineOf? inner)).endTag
      tag.toEnd).output = r.output ++ out ∧ Tagged (· ≠ ruleTag) out := by
  have hevents : ∀ e ∈ (.start tag, lineOf?.map (· start)) ::
      (lined lineOf? inner ++ [(.stop tag.toEnd, lineOf?.map (· stop))]),
      e.1 ∈ (Forest.element tag start stop inner rest).events ∧ e.1 ≠ .rule := by
    intro e he
    rw [Forest.events_element]
    rcases List.mem_cons.1 he with rfl | he
    · exact ⟨List.mem_cons_self, by simp⟩
    rcases List.mem_append.1 he with he | he
    · have hinner := mem_lined he
      refine ⟨List.mem_cons_of_mem _ (List.mem_append_left _ hinner), ?_⟩
      intro heq
      exact hrule (heq ▸ hinner)
    · rw [List.mem_singleton.1 he]
      exact ⟨by simp, by simp⟩
  have houtput := tagged_output hclosed (fun e he => h.events e.1 (hevents e he).1)
    fun e he => (hevents e he).2
  rwa [steps_element] at houtput

/-- If no rule stands in an element, no element is open on the page where a rule stands. -/
theorem rulesOutside_forest (lineOf? : Option (Nat → Nat)) (h : Straight .blocks f)
    (htop : f.rulesAtTop = true) (hready : Ready .blocks false r) :
    ∃ out, (r.steps (lined lineOf? f)).output = r.output ++ out ∧ RulesOutside out := by
  induction f generalizing r with
  | nil => exact ⟨[], (List.append_nil _).symm, .nil⟩
  | leaf e offset rest ih =>
    obtain ⟨hadmits, hrest⟩ := h.leaf
    obtain rfl : e = .rule := by
      cases e with
      | rule => rfl
      | _ => cases hadmits
    have hready' : Ready .blocks false (r.step .rule (lineOf?.map (· offset))) :=
      ⟨hready.heading, hready.saved, hready.current⟩
    obtain ⟨out, hout, houtside⟩ := ih hrest htop hready'
    refine ⟨Html.rule ++ out, ?_, RulesOutside.rule.append houtside⟩
    rw [steps_lined_leaf, hout, ← List.append_assoc]
    rfl
  | element tag start stop inner rest ihInner ihRest =>
    obtain ⟨hholds, hnote, hinner, hrest⟩ := h.element
    obtain ⟨hrule, htop⟩ : .rule ∉ inner.events ∧ rest.rulesAtTop = true := by
      simpa [Forest.rulesAtTop] using htop
    have hunclosed : tag.unclosed = [] := (Content.unclosed_eq hholds).symm
    have hfills := hinner.fills lineOf? (hready.startTag hholds (lineOf?.map (· start)))
    have hnote : (false && tag.isNote) = false := rfl
    obtain ⟨out, head, hwrites, hwalk, -⟩ := moves_element hready hholds hnote hfills []
    rw [hunclosed] at hwalk
    obtain ⟨out', hout', htagged⟩ :=
      tagged_element lineOf? h hrule (hready.heading (by simp))
    rw [hwrites.output] at hout'
    obtain rfl := List.append_cancel_left hout'
    obtain ⟨behind, hbehind, houtside⟩ :=
      ihRest hrest htop (hready.after_element hholds hnote hfills)
    refine ⟨out ++ behind, ?_, (RulesOutside.of_tagged hwalk htagged).append houtside⟩
    rw [steps_lined_element, hbehind, hwrites.output, List.append_assoc]

/-! ## Rules in elements -/

/-- What was written to the page between the two states opens the elements `names`. -/
def Opens (r r' : Renderer) (names : List Text) : Prop :=
  ∃ out, r'.output = r.output ++ out ∧ ∀ s, Walk out s (names ++ s)

namespace Opens

variable {r₁ r₂ : Renderer} {names names' : List Text}

theorem refl (r : Renderer) : Opens r r [] := ⟨[], (List.append_nil _).symm, Html.Balanced.nil⟩

theorem trans (h : Opens r r₁ names) (h' : Opens r₁ r₂ names') : Opens r r₂ (names' ++ names) := by
  obtain ⟨out, hout, hwalk⟩ := h
  obtain ⟨out', hout', hwalk'⟩ := h'
  refine ⟨out ++ out', by rw [hout', hout, List.append_assoc], fun s => ?_⟩
  rw [List.append_assoc]
  exact (hwalk s).append (hwalk' _)

theorem of_moves (h : ∀ s, Moves r r₁ s (names ++ s)) : Opens r r₁ names := by
  obtain ⟨out, head, hwrites, -⟩ := h []
  refine ⟨out, hwrites.output, fun s => ?_⟩
  obtain ⟨out', head', hwrites', hwalk, -⟩ := h s
  have hout := hwrites.output.symm.trans hwrites'.output
  rwa [List.append_cancel_left hout]

theorem of_start {html name : Text} {as : List Html.Attribute} (houtput : r₁.output = r.output ++ html)
    (htags : tags? html = some [.start name as]) (hname : isElement name = true) :
    Opens r r₁ [name] :=
  ⟨html, houtput, fun s => Walk.start htags hname s⟩

end Opens

theorem exists_opens_startTag {tag : Tag} (htag : tag.isNote = false)
    (hcontent : tag.content.mayHoldRules = true) (r : Renderer) (line : Option Nat) :
    ∃ name, Opens r (r.startTag tag line) [name] := by
  cases tag with
  | blockQuote kind =>
    cases kind with
    | none => exact ⟨_, .of_start rfl (Html.tags?_blockQuoteStart line) (by decide)⟩
    | some kind =>
      refine ⟨"div", Html.alertStart kind (Html.lineAttr line), rfl, fun s => ?_⟩
      refine Walk.of_tags (Html.tags?_alertStart kind line) ?_
      rw [Html.openAfter?_start (by decide), Html.openAfter?_start (by decide)]
      exact Html.openAfter?_stop "p" [] _
  | list start =>
    have hname : isElement (listName start) = true := by
      unfold listName
      split <;> decide
    exact ⟨_, .of_start rfl (tags?_listStart start line) hname⟩
  | item => exact ⟨_, .of_start rfl (Html.tags?_lineTag "li" [] (by decide) rfl line) (by decide)⟩
  | definitionList =>
    exact ⟨_, .of_start rfl (Html.tags?_lineTag "dl" "\n" (by decide) (by decide) line) (by decide)⟩
  | definition =>
    exact ⟨_, .of_start rfl (by decide : tags? "<dd>" = some [.start "dd" []]) (by decide)⟩
  | footnoteDefinition _ => cases htag
  | _ => cases hcontent

/-- One of the events is a rule. If `deep` is set, some element that the events open is still open
before it. -/
def HasRule (deep : Bool) (r : Renderer) (es : List (Event × Option Nat)) : Prop :=
  ∃ before line after names, es = before ++ (.rule, line) :: after ∧
    Opens r (r.steps before) names ∧ (deep = true → names ≠ [])

theorem HasRule.append {deep deep' : Bool} {es before : List (Event × Option Nat)}
    {names : List Text} (h : HasRule deep (r.steps before) es) (hopens : Opens r (r.steps before) names)
    (hdeep : deep' = true → deep = true ∨ names ≠ []) (after : List (Event × Option Nat)) :
    HasRule deep' r (before ++ es ++ after) := by
  obtain ⟨before', line, after', names', rfl, hopens', hnames'⟩ := h
  refine ⟨before ++ before', line, after' ++ after, names' ++ names, by simp, ?_, fun hset => ?_⟩
  · rw [steps_append]
    exact hopens.trans hopens'
  · rcases hdeep hset with hset | hnames
    · exact List.append_ne_nil_of_left_ne_nil (hnames' hset) _
    · exact List.append_ne_nil_of_right_ne_nil _ hnames

/-- A rule of the forest is a rule of its events; a rule in an element stands in an open element. -/
theorem hasRule_forest (lineOf? : Option (Nat → Nat)) {deep inside : Bool} (h : Straight c f)
    (hready : Ready c inside r) (hrule : .rule ∈ f.events)
    (hdeep : deep = true → f.rulesAtTop = false) : HasRule deep r (lined lineOf? f) := by
  induction f generalizing c deep inside r with
  | nil => cases hrule
  | leaf e offset rest ih =>
    obtain ⟨hadmits, hrest⟩ := h.leaf
    obtain ⟨hstart, hstop⟩ := ne_of_admits hadmits
    have hmoves := moves_step hstart hstop (h.onlyMarkers e List.mem_cons_self) r
      (lineOf?.map (· offset))
    by_cases hbehind : .rule ∈ rest.events
    · have hopens : Opens r (r.steps [(e, lineOf?.map (· offset))]) [] := .of_moves hmoves
      have happend := (ih hrest (hready.of_moves (hmoves [])) hbehind hdeep).append hopens .inl []
      rwa [List.append_nil] at happend
    · obtain rfl : .rule = e := by simpa [hbehind] using hrule
      refine ⟨[], _, _, [], rfl, .refl r, fun hset => ?_⟩
      have htop := hdeep hset
      rw [Forest.rulesAtTop, Forest.rulesAtTop_of_not_mem hbehind] at htop
      cases htop
  | element tag start stop inner rest ihInner ihRest =>
    obtain ⟨hholds, hnote, hinner, hrest⟩ := h.element
    have hready₁ := hready.startTag hholds (lineOf?.map (· start))
    by_cases hin : .rule ∈ inner.events
    · have hcontent : tag.content.mayHoldRules = true := by
        by_contra hnot
        exact Forest.rule_not_mem_events hinner.fits (by simpa using hnot) hin
      obtain ⟨name, hopens⟩ := exists_opens_startTag hnote hcontent r (lineOf?.map (· start))
      have hopens : Opens r (r.steps [(.start tag, lineOf?.map (· start))]) [name] := hopens
      rw [lined_element]
      -- the element itself is open before the rule, so nothing is asked of what stands in it
      have hinside : HasRule false _ (lined lineOf? inner) :=
        ihInner hinner hready₁ hin fun hset => by cases hset
      exact hinside.append hopens (fun _ => .inr (by simp))
        ((.stop tag.toEnd, lineOf?.map (· stop)) :: lined lineOf? rest)
    · have hbehind : .rule ∈ rest.events := by simpa [hin] using hrule
      have hnote : (inside && tag.isNote) = false := by simp [hnote]
      have hfills := hinner.fills lineOf? hready₁
      have hopens := Opens.of_moves (moves_element hready hholds hnote hfills)
      have hrest := ihRest hrest (hready.after_element hholds hnote hfills) hbehind fun hset => by
        simpa [Forest.rulesAtTop, hin] using hdeep hset
      rw [← steps_element] at hopens hrest
      have happend := hrest.append hopens .inl []
      rw [lined_element]
      simpa using happend

theorem exists_output_append_rule {lineOf? : Option (Nat → Nat)}
    {before after : List (Event × Option Nat)} {line : Option Nat}
    (heq : lined lineOf? f = before ++ (.rule, line) :: after) (h : Straight c f) :
    ∃ behind, (({} : Renderer).steps (lined lineOf? f)).output =
        (({} : Renderer).steps before).output ++ Html.rule ++ behind ∧
      Tagged (fun _ => True) behind := by
  have hevents : ∀ e ∈ lined lineOf? f, e.1.isRaw = false ∧ e.1.isNoteMark = false :=
    fun e he => h.events e.1 (mem_lined he)
  rw [heq] at hevents ⊢
  have hnotes : ∀ e ∈ before ++ (.rule, line) :: after, e.1.isNoteMark = false :=
    fun e he => (hevents e he).2
  have htagged := (tagged_pieces (Q := fun _ => True) (fun _ => trivial) (fun _ => trivial)
    (r := ({} : Renderer)) [] (fun opened hopened => by cases hopened)
    (fun e he => (hevents e he).1) fun _ _ _ _ _ _ _ => trivial).1
  rw [pieces_append] at htagged
  have hbefore := output_steps {} [] fun e he => hnotes e (List.mem_append_left _ he)
  rw [output_steps {} [] hnotes, pieces_append, List.flatMap_append, ← List.append_assoc, ← hbefore]
  exact ⟨_, (List.append_assoc ..).symm, tagged_flatMap fun p hp =>
    htagged p (List.mem_append_right _ (List.mem_cons_of_mem _ hp))⟩

/-- On the page of a well-nested document without raw HTML and footnote definitions, some element is
open where a rule stands exactly if the rule stands in an element. -/
theorem rulesOutside_renderLocated_iff (options : Toc.Options) (lineOf? : Option (Nat → Nat))
    (h : Straight .blocks f) :
    RulesOutside (({} : Renderer).renderLocated options lineOf? f.located).1.html ↔
      f.rulesAtTop = true := by
  have hhtml := html_renderLocated options lineOf? fun e he => (h.events e he).1
  rw [sectionHtml_eq_nil lineOf? h, List.append_nil] at hhtml
  rw [hhtml]
  constructor
  · rintro ⟨ts, hts, -, hrules⟩
    by_contra htop
    have htop : f.rulesAtTop = false := by simpa using htop
    have hrule : .rule ∈ f.events := by
      by_contra hnone
      rw [Forest.rulesAtTop_of_not_mem hnone] at htop
      cases htop
    have hinside : HasRule true _ (lined lineOf? f) :=
      hasRule_forest lineOf? h (Ready.fresh : Ready .blocks false {}) hrule fun _ => htop
    obtain ⟨before, line, after, names, heq, ⟨out, hout, hwalk⟩, hnames⟩ := hinside
    obtain ⟨behind, hbehind, us, hus, -⟩ := exists_output_append_rule heq h
    obtain ⟨as, has, hopen⟩ := hwalk []
    rw [hbehind, hout] at hts
    have hread := Html.visibleTags?_append (Html.visibleTags?_append has
      (by decide : visibleTags? Html.rule = some [ruleTag])) (Html.visibleTags?_of_tags? hus)
    obtain rfl := Option.some.inj (hread.symm.trans hts)
    have hnone := hrules as us (List.append_assoc ..)
    rw [hopen, List.append_nil] at hnone
    exact hnames rfl (Option.some.inj hnone)
  · intro htop
    obtain ⟨out, hout, houtside⟩ := rulesOutside_forest lineOf? h htop Ready.fresh
    rwa [hout]

end documents

end Galley.Render.Renderer
