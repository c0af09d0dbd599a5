import Galley.Proofs.Markdown.Tame.Part

/-!
# Inline elements of tame texts

Reading a tame text gives elements whose texts have no backslash, apart from those that are taken
from the text as they stand: code, raw HTML and links to themselves. The reader keeps that what is
left is tame (`InlineReader.Tame`), and matching delimiters moves elements only.
-/

namespace Galley.Markdown

/-! ## Elements -/

/-- The texts of a start that a page shows. Labels of footnotes are not shown. -/
def Tag.texts : Tag → List Text
  | .heading _ id => id.toList
  | .codeBlock info => info.toList
  | .link url title | .image url title => [url, title]
  | _ => []

/-- The elements of a tame text. -/
inductive Inline.Tame : Inline → Prop
  | text {s : Text} (h : '\\' ∉ s) : Tame (.text s)
  | code {s : Text} (h : Dollared s) : Tame (.code s)
  | html {s : Text} (h : Dollared s) : Tame (.html s)
  | note (label : Text) : Tame (.note label)
  | softBreak : Tame .softBreak
  | hardBreak : Tame .hardBreak
  | run {delimiter : Char} (h : delimiter ≠ '\\') (length : Nat) (opens closes : Bool) :
    Tame (.run delimiter length opens closes)
  /-- A link to itself. -/
  | own {url : Text} (h : Dollared url) (hname : namesItself url = true) :
    Tame (.span (.link url []) [.text url])
  | span {tag : Tag} {children : List Inline} (htag : ∀ s ∈ tag.texts, '\\' ∉ s)
    (h : ∀ child ∈ children, child.Tame) : Tame (.span tag children)

/-- The targets of a document whose text is tame. -/
def Definitions.Clean (defs : Definitions) : Prop := ∀ target ∈ defs.targets, target.2.Clean

theorem mem_of_lookup_eq_some {α : Type} {key : Text} {value : α} {pairs : List (Text × α)}
    (h : pairs.lookup key = some value) : ∃ pair ∈ pairs, pair.2 = value := by
  induction pairs with
  | nil => cases h
  | cons pair pairs ih =>
    obtain ⟨name, first⟩ := pair
    rw [List.lookup_cons] at h
    split at h
    · exact ⟨_, List.mem_cons_self, Option.some.inj h⟩
    · obtain ⟨pair, hpair, heq⟩ := ih h
      exact ⟨pair, List.mem_cons_of_mem _ hpair, heq⟩

theorem Definitions.Clean.of_target? {defs : Definitions} (h : defs.Clean) {label : Text}
    {target : Target} (hlabel : defs.target? label = some target) : target.Clean := by
  obtain ⟨pair, hpair, rfl⟩ := mem_of_lookup_eq_some hlabel
  exact h pair hpair

/-! ## The reader -/

/-- What is left of a tame text, and the elements that were read. -/
structure InlineReader.Tame (r : InlineReader) : Prop where
  rest : Markdown.Tame r.rest
  hidden : ∀ s ∈ r.hidden, '\\' ∉ s
  elements : ∀ e ∈ r.elements, e.Tame
  brackets : ∀ b ∈ r.brackets, ∀ e ∈ b.before, e.Tame

namespace InlineReader

namespace Tame

variable {r : InlineReader}

theorem advance (h : r.Tame) (n : Nat) : (r.advance n).Tame where
  rest := h.rest.drop n
  hidden := fun s hs => h.hidden s (List.mem_of_mem_drop hs)
  elements := h.elements
  brackets := h.brackets

theorem add (h : r.Tame) {e : Inline} (he : e.Tame) : (r.add e).Tame where
  rest := h.rest
  hidden := h.hidden
  elements := List.forall_mem_cons.2 ⟨he, h.elements⟩
  brackets := h.brackets

theorem takeText (h : r.Tame) {n : Nat} (hn : '\\' ∉ r.rest.take n) : (r.takeText n).Tame :=
  (h.advance n).add (.text hn)

theorem takeTo (h : r.Tame) (rest : Text) {e : Inline} (he : e.Tame) : (r.takeTo rest e).Tame :=
  (h.advance _).add he

theorem takeBreak (h : r.Tame) (n : Nat) {e : Inline} (he : e.Tame) : (r.takeBreak n e).Tame :=
  h.takeTo _ he

end Tame

variable {r : InlineReader}

theorem take_takeWhile (p : Char → Bool) (s : Text) :
    s.take (s.takeWhile p).length = s.takeWhile p :=
  (List.prefix_iff_eq_take.1 (List.takeWhile_prefix p)).symm

theorem tame_takeGap (h : r.Tame) : r.takeGap.Tame := by
  unfold takeGap
  simp only
  split
  · exact h.advance _
  · split
    · split
      · exact h.takeBreak _ .hardBreak
      · exact h.takeBreak _ .softBreak
    · refine h.takeText ?_
      rw [take_takeWhile]
      exact Text.not_mem_takeWhile (by decide) r.rest

theorem tame_takeBackslash (h : r.Tame) {s : Text} (hrest : r.rest = '\\' :: s) :
    r.takeBackslash.Tame := by
  have hrestTame := h.rest
  rw [hrest] at hrestTame
  have hhead := hrestTame.1 rfl
  unfold takeBackslash
  rw [hrest, List.drop_one, List.tail_cons]
  cases s with
  | nil => cases hhead
  | cons c s =>
    obtain rfl : c = '$' := Option.some.inj hhead
    exact (h.advance 2).add (.text (by decide))

theorem tame_takeCode (h : r.Tame) : r.takeCode.Tame := by
  unfold takeCode
  simp only
  split
  · next body hbody =>
    obtain ⟨behind, hbehind⟩ := eq_of_codeBody? hbody
    have hdrop := h.rest.drop (runLength '\x60' r.rest)
    rw [hbehind] at hdrop
    have hcode := (hdrop.of_cut (cut_cons (by decide) _)).dollared
    exact (h.advance _).add (.code (dollared_codeText hcode))
  · refine h.takeText ?_
    rw [runLength, take_takeWhile]
    exact Text.not_mem_takeWhile (by decide) r.rest

theorem tame_takeOne (h : r.Tame) {c : Char} {s : Text} (hrest : r.rest = c :: s)
    (hc : c ≠ '\\') : (r.takeText 1).Tame := by
  refine h.takeText ?_
  rw [hrest, List.take_succ_cons, List.take_zero, List.mem_singleton]
  exact Ne.symm hc

theorem tame_takeAngle (h : r.Tame) {s : Text} (hrest : r.rest = '<' :: s) : r.takeAngle.Tame := by
  unfold takeAngle
  simp only
  cases hauto : Link.auto? (r.rest.drop 1) with
  | some found =>
    obtain ⟨url, rest⟩ := found
    obtain ⟨hdollared, hname⟩ := auto?_spec (h.rest.drop 1) hauto
    exact h.takeTo rest (.own hdollared hname)
  | none =>
    cases htag : RawHtml.afterTag? true r.rest with
    | some rest =>
      have hsuffix := RawHtml.suffix_of_afterTag? htag
      exact h.takeTo rest (.html (RawHtml.dollared_of_suffix h.rest hsuffix))
    | none =>
      cases hmarkup : RawHtml.afterMarkup? r.rest with
      | some rest =>
        have hsuffix := RawHtml.suffix_of_afterMarkup? hmarkup
        exact h.takeTo rest
          (.html (dollared_reveal h.hidden (RawHtml.dollared_of_suffix h.rest hsuffix)))
      | none => exact tame_takeOne h hrest (by decide)

theorem tame_takeReference (h : r.Tame) {s : Text} (hrest : r.rest = '&' :: s) :
    r.takeReference.Tame := by
  unfold takeReference
  split
  · next value rest hvalue =>
    exact h.takeTo rest (.text (h.rest.backslash_not_mem_of_atStart? hvalue))
  · exact tame_takeOne h hrest (by decide)

theorem tame_takeRun (h : r.Tame) (extensions : Extensions) (next : Option Char) {delimiter : Char}
    (hdelimiter : delimiter ≠ '\\') : (r.takeRun extensions next delimiter).Tame := by
  unfold takeRun
  simp only
  split
  · exact (h.advance _).add (.run hdelimiter _ _ _)
  · refine h.takeText ?_
    rw [runLength, take_takeWhile]
    exact Text.not_mem_takeWhile (by simpa using Ne.symm hdelimiter) r.rest

/-! ### Brackets -/

theorem tame_bracketText (b : Bracket) : b.text.Tame := by
  unfold Bracket.text
  split
  · exact .text (by decide)
  · exact .text (by decide)

theorem tame_openBracket (h : r.Tame) (image : Bool) : (r.openBracket image).Tame where
  rest := h.rest.drop _
  hidden := (h.advance _).hidden
  elements := fun _ he => nomatch he
  brackets := List.forall_mem_cons.2 ⟨h.elements, h.brackets⟩

section closing

variable {b : Bracket} {outer : List Bracket} (h : r.Tame) (hb : r.brackets = b :: outer)
include h hb

theorem tame_dropBracket {s : Text} (hrest : r.rest = ']' :: s) : (r.dropBracket b outer).Tame := by
  have hbrackets := h.brackets
  rw [hb, List.forall_mem_cons] at hbrackets
  have hopen : InlineReader.Tame
      { r with elements := r.elements ++ b.text :: b.before, brackets := outer } :=
    { rest := h.rest
      hidden := h.hidden
      elements := List.forall_mem_append.2
        ⟨h.elements, List.forall_mem_cons.2 ⟨tame_bracketText b, hbrackets.1⟩⟩
      brackets := hbrackets.2 }
  exact tame_takeOne hopen hrest (by decide)

theorem tame_closeLink {target : Target} (htarget : target.Clean) (rest : Text) :
    (r.closeLink b outer target rest).Tame := by
  have hbrackets := h.brackets
  rw [hb, List.forall_mem_cons] at hbrackets
  have hchildren : ∀ e ∈ r.elements.reverse, e.Tame := fun e he =>
    h.elements e (List.mem_reverse.1 he)
  have htexts : ∀ s ∈ [target.url, target.title], '\\' ∉ s :=
    List.forall_mem_cons.2 ⟨htarget.1, List.forall_mem_singleton.2 htarget.2⟩
  have hspan : (Inline.span (if b.image then .image target.url target.title
      else .link target.url target.title) r.elements.reverse).Tame := by
    split
    · exact .span htexts hchildren
    · exact .span htexts hchildren
  let brackets :=
    if b.image then outer
    else outer.map fun o => if o.image then o else { o with active := false }
  have houter : ∀ o ∈ brackets, ∀ e ∈ o.before, e.Tame := by
    unfold brackets
    split
    · exact hbrackets.2
    · rw [List.forall_mem_map]
      intro o ho
      split
      · exact hbrackets.2 o ho
      · exact hbrackets.2 o ho
  have hopen : InlineReader.Tame { r with elements := b.before, brackets } :=
    ⟨h.rest, h.hidden, hbrackets.1, houter⟩
  exact hopen.takeTo rest hspan

theorem tame_closeNote (label rest : Text) : (r.closeNote b outer label rest).Tame := by
  have hbrackets := h.brackets
  rw [hb, List.forall_mem_cons] at hbrackets
  have hbefore : ∀ e ∈ b.before ++ outer.flatMap (fun o => o.text :: o.before), e.Tame := by
    rw [List.forall_mem_append]
    refine ⟨hbrackets.1, fun e he => ?_⟩
    obtain ⟨o, ho, he⟩ := List.mem_flatMap.1 he
    exact List.forall_mem_cons.2 ⟨tame_bracketText o, hbrackets.2 o ho⟩ e he
  have hmark : ∀ e ∈ (if b.image then [.text "!"] else [] : List Inline), e.Tame := by
    split
    · exact List.forall_mem_singleton.2 (.text (by decide))
    · exact fun _ he => nomatch he
  have hopen : InlineReader.Tame
      { r with
        elements := (if b.image then [.text "!"] else [] : List Inline) ++
          (b.before ++ outer.flatMap fun o => o.text :: o.before)
        brackets := [] } :=
    { rest := h.rest
      hidden := h.hidden
      elements := List.forall_mem_append.2 ⟨hmark, hbefore⟩
      brackets := fun _ ho => nomatch ho }
  exact hopen.takeTo rest (.note label)

variable {extensions : Extensions} {defs : Definitions} (hdefs : defs.Clean)
include hdefs

theorem tame_closeOwnLabel {s : Text} (hrest : r.rest = ']' :: s) (rest : Text) :
    (r.closeOwnLabel extensions defs b outer rest).Tame := by
  have hdrop := tame_dropBracket h hb hrest
  unfold closeOwnLabel
  simp only
  split
  · exact hdrop
  · split
    · exact hdrop
    · split
      · split
        · exact tame_closeNote h hb _ _
        · exact hdrop
      · split
        · next htarget => exact tame_closeLink h hb (hdefs.of_target? htarget) rest
        · exact hdrop

end closing

theorem tame_closeBracket (h : r.Tame) {extensions : Extensions} {defs : Definitions}
    (hdefs : defs.Clean) {s : Text} (hrest : r.rest = ']' :: s) :
    (r.closeBracket extensions defs).Tame := by
  unfold closeBracket
  split
  · exact tame_takeOne h hrest (by decide)
  · next b outer hb =>
    have hdrop := tame_dropBracket h hb hrest
    simp only
    split
    · exact hdrop
    · split
      · next htarget => exact tame_closeLink h hb (clean_of_inlineTarget? (h.rest.drop 1) htarget) _
      · split
        · next label rest _ =>
          have hspent : InlineReader.Tame { r with spent := some rest.length } :=
            ⟨h.rest, h.hidden, h.elements, h.brackets⟩
          split
          · next htarget => exact tame_closeLink hspent hb (hdefs.of_target? htarget) rest
          · exact tame_dropBracket hspent hb hrest
        · exact tame_closeOwnLabel h hb hdefs hrest _
        · exact tame_closeOwnLabel h hb hdefs hrest _

/-! ### The whole text -/

section run

variable {extensions : Extensions} {defs : Definitions} (hmath : extensions.math = false)
  (hdefs : defs.Clean)
include hmath hdefs

theorem tame_step (h : r.Tame) (next : Option Char) : (r.step extensions defs next).Tame := by
  unfold step
  split
  · exact h
  · next c s hrest =>
    refine iteInduction (fun _ => h.takeBreak 0 .softBreak) fun _ => ?_
    refine iteInduction (fun _ => tame_takeGap h) fun _ => ?_
    refine iteInduction (fun hc => tame_takeBackslash h (hc ▸ hrest)) fun hbackslash => ?_
    refine iteInduction (fun _ => tame_takeCode h) fun _ => ?_
    refine iteInduction (fun hdollar => ?_) fun _ => ?_
    · simp [hmath] at hdollar
    refine iteInduction (fun hangle => ?_) fun _ => ?_
    · obtain ⟨rfl, -⟩ : c = '<' ∧ s.head? ≠ some '\\' := by simpa using hangle
      exact tame_takeAngle h hrest
    refine iteInduction (fun hc => tame_takeReference h (hc ▸ hrest)) fun _ => ?_
    refine iteInduction (fun _ => tame_openBracket h true) fun _ => ?_
    refine iteInduction (fun _ => tame_openBracket h false) fun _ => ?_
    refine iteInduction (fun hc => tame_closeBracket h hdefs (hc ▸ hrest)) fun _ => ?_
    refine iteInduction (fun _ => tame_takeRun h extensions next hbackslash) fun _ => ?_
    refine h.takeText ?_
    rw [hrest, Nat.add_comm, List.take_succ_cons, take_takeWhile, List.mem_cons, not_or]
    exact ⟨Ne.symm hbackslash, Text.not_mem_takeWhile (by decide) s⟩

theorem tame_run (next : Option Char) (fuel : Nat) (h : r.Tame) :
    (run extensions defs next fuel r).Tame := by
  induction fuel generalizing r with
  | zero => exact h
  | succ fuel ih =>
    rw [run]
    split
    · exact h
    · exact ih (tame_step hmath hdefs h next)

end run

theorem tame_result (h : r.Tame) : ∀ e ∈ r.result, e.Tame := by
  intro e he
  rcases List.mem_append.1 (List.mem_reverse.1 he) with he | he
  · exact h.elements e he
  · obtain ⟨b, hb, he⟩ := List.mem_flatMap.1 he
    exact List.forall_mem_cons.2 ⟨tame_bracketText b, h.brackets b hb⟩ e he

end InlineReader

/-! ## Delimiters -/

/-- An opener between elements of a tame text. -/
structure Opener.Tame (o : Opener) : Prop where
  delimiter : o.delimiter ≠ '\\'
  content : ∀ e ∈ o.content, e.Tame

theorem tame_delimiters {delimiter : Char} (h : delimiter ≠ '\\') (n : Nat) :
    (Inline.text (List.replicate n delimiter)).Tame :=
  .text fun hmem => h (List.eq_of_mem_replicate hmem).symm

theorem Opener.Tame.unmatched {o : Opener} (h : o.Tame) : ∀ e ∈ o.unmatched, e.Tame :=
  List.forall_mem_append.2
    ⟨h.content, List.forall_mem_singleton.2 (tame_delimiters h.delimiter o.left)⟩

theorem tame_delimited (delimiter : Char) (n : Nat) {content : List Inline}
    (h : ∀ e ∈ content, e.Tame) : ∀ e ∈ delimited delimiter n content, e.Tame := by
  have hspan (double : Bool) {content : List Inline} (h : ∀ e ∈ content, e.Tame) :
      ∀ e ∈ [Inline.span (delimitedTag delimiter double) content], e.Tame := by
    have htexts : (delimitedTag delimiter double).texts = [] := by
      unfold delimitedTag
      split
      · split <;> rfl
      split
      · rfl
      split <;> rfl
    refine List.forall_mem_singleton.2 (.span ?_ h)
    rw [htexts]
    exact fun _ hs => nomatch hs
  fun_induction delimited delimiter n content with
  | case1 => exact h
  | case2 => exact hspan false h
  | case3 n content ih => exact ih (hspan true h)

namespace Matching

/-- The matching of runs between elements of a tame text. -/
structure Tame (m : Matching) : Prop where
  before : ∀ e ∈ m.before, e.Tame
  openers : ∀ o ∈ m.openers, o.Tame

variable {m : Matching}

theorem Tame.add (h : m.Tame) {elements : List Inline} (he : ∀ e ∈ elements, e.Tame) :
    (m.add elements).Tame := by
  have hopeners := h.openers
  unfold Matching.add
  split
  · next hnil => exact ⟨List.forall_mem_append.2 ⟨he, h.before⟩, hnil ▸ hopeners⟩
  · next o os hcons =>
    rw [hcons, List.forall_mem_cons] at hopeners
    refine ⟨h.before, List.forall_mem_cons.2 ⟨⟨hopeners.1.delimiter, ?_⟩, hopeners.2⟩⟩
    exact List.forall_mem_append.2 ⟨he, hopeners.1.content⟩

theorem tame_of_findOpener? {p : Opener → Bool} {behind content : List Inline}
    {openers outer : List Opener} {o : Opener} (h : ∀ o ∈ openers, o.Tame)
    (hbehind : ∀ e ∈ behind, e.Tame)
    (hfind : findOpener? p behind openers = some (o, content, outer)) :
    o.Tame ∧ (∀ e ∈ content, e.Tame) ∧ ∀ o ∈ outer, o.Tame := by
  induction openers generalizing behind with
  | nil => cases hfind
  | cons first os ih =>
    rw [List.forall_mem_cons] at h
    rw [findOpener?] at hfind
    split at hfind
    · obtain ⟨rfl, rfl, rfl⟩ : first = o ∧ behind ++ first.content = content ∧ os = outer := by
        simpa using hfind
      exact ⟨h.1, List.forall_mem_append.2 ⟨hbehind, h.1.content⟩, h.2⟩
    · exact ih h.2 (List.forall_mem_append.2 ⟨hbehind, h.1.unmatched⟩) hfind

theorem tame_close {delimiter : Char} {length : Nat} {opens : Bool} {fuel left : Nat}
    (h : m.Tame) : (close delimiter length opens fuel left m).2.Tame := by
  induction fuel generalizing left m with
  | zero => exact h
  | succ fuel ih =>
    rw [close]
    simp only
    split
    · split
      · exact ⟨h.before, h.openers⟩
      · exact h
    · next o content outer hfind =>
      have hnone : ∀ e ∈ ([] : List Inline), e.Tame := fun _ he => nomatch he
      obtain ⟨ho, hcontent, houter⟩ := tame_of_findOpener?
        (fun o ho => h.openers o (List.mem_of_mem_take ho)) hnone hfind
      have hreverse : ∀ e ∈ content.reverse, e.Tame := fun e he =>
        hcontent e (List.mem_reverse.1 he)
      have helement := tame_delimited delimiter (min left o.left) hreverse
      have hopeners (k : Nat) : ∀ o ∈ outer ++ m.openers.drop k, o.Tame :=
        List.forall_mem_append.2 ⟨houter, fun o ho => h.openers o (List.mem_of_mem_drop ho)⟩
      have hclosed (k tildeFloor : Nat) : Matching.Tame
          { m with openers := outer ++ m.openers.drop k, tildeFloor } :=
        ⟨h.before, hopeners k⟩
      have hpart (k tildeFloor left' : Nat) : Matching.Tame
          { m with
            openers := { o with
              left := left'
              content := delimited delimiter (min left o.left) content.reverse } ::
                (outer ++ m.openers.drop k)
            tildeFloor } :=
        ⟨h.before, List.forall_mem_cons.2 ⟨⟨ho.delimiter, helement⟩, hopeners k⟩⟩
      split
      · apply ih
        split
        · exact hpart _ _ _
        · exact (hclosed _ _).add helement
      · split
        · exact hpart _ _ _
        · exact (hclosed _ _).add helement

theorem Tame.step (h : m.Tame) {e : Inline} (he : e.Tame) : (m.step e).Tame := by
  unfold Matching.step
  split
  · next delimiter length opens closes =>
    have hdelimiter : delimiter ≠ '\\' := by
      cases he with
      | run h => exact h
    have hclosed : (if closes then close delimiter length opens length length m
        else (length, m)).2.Tame := by
      split
      · exact tame_close h
      · exact h
    generalize (if closes then close delimiter length opens length length m
      else (length, m)) = found at hclosed
    obtain ⟨left, m⟩ := found
    simp only
    split
    · exact hclosed
    split
    · have hopener : Opener.Tame { delimiter, left, length, closes } :=
        ⟨hdelimiter, fun _ he => nomatch he⟩
      exact ⟨hclosed.before, List.forall_mem_cons.2 ⟨hopener, hclosed.openers⟩⟩
    · exact hclosed.add (List.forall_mem_singleton.2 (tame_delimiters hdelimiter left))
  · exact h.add (List.forall_mem_singleton.2 he)

theorem Tame.steps (h : m.Tame) {elements : List Inline} (he : ∀ e ∈ elements, e.Tame) :
    (elements.foldl Matching.step m).Tame := by
  induction elements generalizing m with
  | nil => exact h
  | cons e elements ih =>
    rw [List.forall_mem_cons] at he
    exact ih (h.step he.1) he.2

theorem Tame.result (h : m.Tame) : ∀ e ∈ m.result, e.Tame := by
  intro e he
  rcases List.mem_append.1 (List.mem_reverse.1 he) with he | he
  · obtain ⟨o, ho, he⟩ := List.mem_flatMap.1 he
    exact (h.openers o ho).unmatched e he
  · exact h.before e he

theorem tame_start : Matching.Tame {} := ⟨fun _ he => (nomatch he), fun _ ho => (nomatch ho)⟩

end Matching

theorem Inline.resolveList_eq_map (elements : List Inline) :
    Inline.resolveList elements = elements.map Inline.resolve := by
  induction elements with
  | nil => rfl
  | cons e elements ih => rw [Inline.resolveList, ih, List.map_cons]

theorem Inline.Tame.resolve {e : Inline} (h : e.Tame) : e.resolve.Tame := by
  induction h with
  | text h => exact .text h
  | code h => exact .code h
  | html h => exact .html h
  | note label => exact .note label
  | softBreak => exact .softBreak
  | hardBreak => exact .hardBreak
  | run h length opens closes => exact .run h length opens closes
  | own h hname => exact .own h hname
  | span htag _ ih =>
    rw [Inline.resolve, Inline.resolveList_eq_map]
    exact .span htag (Matching.tame_start.steps (List.forall_mem_map.2 ih)).result

theorem tame_resolveRuns {elements : List Inline} (h : ∀ e ∈ elements, e.Tame) :
    ∀ e ∈ resolveRuns elements, e.Tame := by
  unfold resolveRuns
  rw [Inline.resolveList_eq_map]
  exact (Matching.tame_start.steps (List.forall_mem_map.2 fun e he => (h e he).resolve)).result

/-- The text of a leaf, with what was left out of it. -/
structure Source.Tame (source : Source) : Prop where
  text : Markdown.Tame source.text
  hidden : ∀ s ∈ source.hidden, '\\' ∉ s

theorem Source.Tame.inlines {source : Source} (h : source.Tame) {extensions : Extensions}
    (hmath : extensions.math = false) {defs : Definitions} (hdefs : defs.Clean) :
    ∀ e ∈ source.inlines extensions defs, e.Tame := by
  have hreader : InlineReader.Tame { rest := source.text, hidden := source.hidden } :=
    ⟨h.text, h.hidden, fun _ he => (nomatch he), fun _ hb => (nomatch hb)⟩
  exact tame_resolveRuns (InlineReader.tame_result (InlineReader.tame_run hmath hdefs _ _ hreader))

end Galley.Markdown
