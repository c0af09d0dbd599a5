import Galley.Document.FrontMatter
import Galley.Document.MatterBlock
import Galley.Proofs.Markdown.FirstBlock

/-!
# Two ways to find the front matter

The front matter block is found twice: line by line, to know where the document goes on, and by the
reader of Markdown, to know the attributes. If the delimiters are written plainly, both find the
same block, except that the reader finds none whose first line is blank or closes it
(`MatterBlock.metadataEnd?_eq_end?`).
-/

namespace Galley.Document

open Markdown

namespace FrontMatter

/-- Where the reader of Markdown goes on behind the metadata block that a document begins with. -/
def metadataEnd? (markup : Text) : Option Nat :=
  let read := OpenBlocks.readBlock {} .metadataOnly (.ofLine markup 0)
  match read.1.top with
  | [.metadata _ _] => some read.2.offset
  | _ => none

variable {markup : Text}

theorem exists_dashes (h : Text.hasPrefix MatterBlock.delimiter markup = true) :
    ∃ r, markup = '-' :: '-' :: r := by
  obtain ⟨r, rfl⟩ := Text.hasPrefix_iff.1 h
  exact ⟨'-' :: r, rfl⟩

variable (hdashes : Text.hasPrefix MatterBlock.delimiter markup = true)
include hdashes

theorem isSome_metadata? : (metadata? markup).isSome = beginsMetadata markup := by
  rw [Bool.eq_iff_iff, ← parse_startsMetadata_iff (exists_dashes hdashes)]
  unfold metadata?
  split
  · next start events hevents =>
    simp only [Option.isSome_some, true_iff]
    exact ⟨start, events, hevents⟩
  · next hnone =>
    simp only [Option.isSome_none, Bool.false_eq_true, false_iff]
    rintro ⟨start, events, hevents⟩
    exact hnone start events hevents

theorem metadataEnd?_of_begins (h : beginsMetadata markup = true) :
    metadataEnd? markup =
      some (Surroundings.readMetadata ⟨.metadataOnly, []⟩ (markup.length + 1)
        (.ofLine (cutLine markup).2 (Text.byteLength (cutLine markup).1))).2.offset := by
  have hjump := Cursor.jumpTo_of_append (c := .ofLine markup 0) (cutLine_append markup).symm
  have hread := OpenBlocks.readBlock_dashes 0 (exists_dashes hdashes)
  rw [OpenBlocks.addLeaf_of_beginsMetadata 0 (exists_dashes hdashes) h, hjump] at hread
  unfold metadataEnd?
  rw [hread]
  simp [Cursor.ofLine]

theorem metadataEnd?_of_not_begins (h : beginsMetadata markup = false) :
    metadataEnd? markup = none := by
  have hread := OpenBlocks.readBlock_dashes 0 (exists_dashes hdashes)
  obtain ⟨block, htop, hother⟩ :=
    OpenBlocks.addLeaf_of_not_beginsMetadata 0 (exists_dashes hdashes) h
  unfold metadataEnd?
  simp only [hread, htop]
  split
  · next hblock =>
    obtain ⟨rfl, -⟩ := List.cons.inj hblock
    obtain ⟨first, events, hevents, hne⟩ := hother ⟨.metadataOnly, {}⟩
    obtain ⟨rfl, -⟩ := List.cons.inj hevents
    exact absurd rfl hne
  · rfl

theorem isSome_metadataEnd? : (metadataEnd? markup).isSome = beginsMetadata markup := by
  cases h : beginsMetadata markup with
  | true =>
    rw [metadataEnd?_of_begins hdashes h]
    rfl
  | false =>
    rw [metadataEnd?_of_not_begins hdashes h]
    rfl

end FrontMatter

namespace MatterBlock

/-! ## Plain delimiters -/

def endings : List Text := [[], ['\n'], ['\r', '\n'], ['\r']]

/-- Whether a line is three dashes or three dots with nothing but spaces behind. -/
def IsPlain (line : Text) : Prop :=
  ∃ mark spaces, (mark = '-' ∨ mark = '.') ∧
    ∃ ending ∈ endings, line = List.replicate 3 mark ++ (List.replicate spaces ' ' ++ ending)

theorem IsPlain.closes {line : Text} (h : IsPlain line) : MatterBlock.closes line = true := by
  obtain ⟨mark, spaces, hmark, ending, hending, rfl⟩ := h
  have hblanks : (List.replicate spaces ' ' ++ ending).all Text.isBlank = true := by
    have hend : ∀ e ∈ endings, e.all Text.isBlank = true := by decide
    have hspace : ∀ c ∈ List.replicate spaces ' ', Text.isBlank c = true := by
      intro c hc
      rw [List.eq_of_mem_replicate hc]
      decide
    rw [List.all_append, hend ending hending, List.all_eq_true.2 hspace]
    rfl
  have htrim : Text.trimEnd (List.replicate 3 mark ++ (List.replicate spaces ' ' ++ ending)) =
      Text.trimEnd (List.replicate 3 mark) := Text.dropEndWhile_append_of_all _ hblanks
  unfold MatterBlock.closes
  rw [htrim]
  rcases hmark with rfl | rfl
  · decide
  · decide

theorem IsPlain.afterMetadata? {line rest : Text} (h : IsPlain line)
    (hrest : rest = [] ∨ ∃ t, line = t ++ ['\n']) :
    (Markdown.afterMetadata? (line ++ rest)).bind afterBlank? = some rest := by
  obtain ⟨mark, spaces, hmark, ending, hending, rfl⟩ := h
  have hbehind : (ending ++ rest).head?.all isEnding = true ∧
      afterEnding? (ending ++ rest) = some rest := by
    rcases hrest with rfl | ⟨t, ht⟩
    · have hall : ∀ e ∈ endings, e.head?.all isEnding = true ∧ afterEnding? e = some [] := by decide
      rw [List.append_nil]
      exact hall ending hending
    · have hnewline : '\n' ∈ ending := by
        have hmem : '\n' ∈ t ++ ['\n'] := by simp
        rw [← ht] at hmem
        rcases hmark with rfl | rfl
        · simpa using hmem
        · simpa using hmem
      have hall : ∀ e ∈ endings, '\n' ∈ e → e = ['\n'] ∨ e = ['\r', '\n'] := by decide
      rcases hall ending hending hnewline with rfl | rfl
      · exact ⟨rfl, rfl⟩
      · exact ⟨rfl, rfl⟩
  have hclose := afterMetadata?_marks hmark spaces hbehind.1
  rw [← List.append_assoc (List.replicate spaces ' '), ← List.append_assoc] at hclose
  rw [hclose, Option.bind_some, afterBlank?, dropWhile_of_head hbehind.1 (by decide) (by decide)]
  exact hbehind.2

/-! ## Line by line -/

section lines

variable {markup first : Text} {lines : List Text} (hlines : Text.lines markup = first :: lines)

theorem throughClosing?_of_closes {before after : List Text} {line : Text}
    (hbefore : ∀ earlier ∈ before, closes earlier = false) (hline : closes line = true) :
    throughClosing? (before ++ line :: after) = some (before ++ [line], after) := by
  induction before with
  | nil => simp [throughClosing?, hline]
  | cons earlier before ih =>
    rw [List.forall_mem_cons] at hbefore
    simp [throughClosing?, hbefore.1, ih hbefore.2]

theorem throughClosing?_eq_none (h : ∀ line ∈ lines, closes line = false) :
    throughClosing? lines = none := by
  induction lines with
  | nil => rfl
  | cons line lines ih =>
    rw [List.forall_mem_cons] at h
    simp [throughClosing?, h.1, ih h.2]

include hlines

theorem end?_of_closes {before after : List Text} {line : Text}
    (hfirst : Text.trimEnd first = delimiter) (hsplit : lines = before ++ line :: after)
    (hbefore : ∀ earlier ∈ before, closes earlier = false) (hline : closes line = true) :
    MatterBlock.end? markup = some (Text.byteLength (first ++ (before.flatten ++ line))) := by
  unfold end? split?
  rw [hlines]
  simp [hfirst, hsplit, throughClosing?_of_closes hbefore hline]

theorem end?_eq_none (h : Text.trimEnd first = delimiter → ∀ line ∈ lines, closes line = false) :
    MatterBlock.end? markup = none := by
  unfold end? split?
  rw [hlines]
  by_cases hfirst : Text.trimEnd first = delimiter
  · simp [hfirst, throughClosing?_eq_none (h hfirst)]
  · simp [hfirst]

end lines

/-- The line that opens a block opens metadata if only ASCII blanks follow its dashes. -/
theorem opensMetadata_iff {first : Text}
    (h : Text.trimEnd first = delimiter → ∀ c ∈ first.drop 3, isSpacing c ∧ c ≠ '\x0b') :
    opensMetadata first = true ↔ Text.trimEnd first = delimiter := by
  constructor
  · intro hopens
    unfold opensMetadata at hopens
    rw [Bool.and_eq_true, decide_eq_true_eq, List.all_eq_true] at hopens
    obtain ⟨hrun, hrest⟩ := hopens
    have hmarks : first.takeWhile (· == '-') = List.replicate 3 '-' := by
      apply List.eq_replicate_iff.2
      have hall : (first.takeWhile (· == '-')).all (· == '-') = true := List.all_takeWhile
      exact ⟨hrun, fun c hc => by simpa using List.all_eq_true.1 hall c hc⟩
    have hfirst : first = List.replicate 3 '-' ++ first.drop 3 := by
      rw [← hmarks, ← hrun, drop_runLength, List.takeWhile_append_dropWhile]
    have hblanks : (first.drop 3).all Text.isBlank = true := by
      rw [List.all_eq_true]
      intro c hc
      have hspacing := hrest c hc
      rw [Bool.and_eq_true] at hspacing
      exact isBlank_of_isSpacing hspacing.1
    rw [hfirst, Text.trimEnd, Text.dropEndWhile_append_of_all _ hblanks]
    rfl
  · intro htrim
    obtain ⟨b, hb, hfirst⟩ := Text.exists_append_dropEndWhile Text.isBlank first
    have hline : first = List.replicate 3 '-' ++ b := hfirst.trans (congrArg (· ++ b) htrim)
    have hhead : b.head? ≠ some '-' := by
      cases b with
      | nil => simp
      | cons c b =>
        rintro ⟨⟩
        cases hb
    have hrest := h htrim
    rw [hline] at hrest ⊢
    unfold opensMetadata
    rw [runLength_replicate_append 3 hhead]
    simpa using hrest

/-! ## Both agree -/

/-- The delimiters of a document are written plainly: only ASCII blanks follow the dashes that open
a block, and the first line that may close it is plain. -/
structure PlainMarks (markup : Text) : Prop where
  opening : ∀ first ∈ (Text.lines markup).head?, Text.trimEnd first = delimiter →
    ∀ c ∈ first.drop 3, isSpacing c ∧ c ≠ '\x0b'
  closing : ∀ line ∈ (Text.lines markup).tail.find? fun line =>
    closes line || (afterMetadata? line).isSome, IsPlain line

/-- Whether the line below the first is missing, is blank, or closes the block. -/
def opensEmpty (markup : Text) : Bool :=
  (Text.lines markup).tail.head?.all fun second => isBlankLine second || closes second

/-- If the first line that may close a block does so for both, the reader of Markdown finds the
block as soon as its lines are opened and not empty. -/
theorem beginsMetadata_iff_opens {markup first line : Text} {before after : List Text}
    (hlines : Text.lines markup = first :: (before ++ line :: after))
    (hopens : opensMetadata first = true ↔ Text.trimEnd first = delimiter)
    (hbefore : ∀ earlier ∈ before, closes earlier = false ∧ (afterMetadata? earlier).isSome = false)
    (hline : IsPlain line) :
    beginsMetadata markup = true ↔ Text.trimEnd first = delimiter ∧ opensEmpty markup = false := by
  have hcloses : (afterMetadata? line).isSome = true := by
    have hbind := hline.afterMetadata? (.inl rfl)
    rw [List.append_nil] at hbind
    obtain ⟨rest, hrest, -⟩ := Option.bind_eq_some_iff.1 hbind
    exact Option.isSome_of_eq_some hrest
  have hempty : (before ++ line :: after).head?.all (fun second =>
      isBlankLine second || (afterMetadata? second).isSome) = opensEmpty markup := by
    unfold opensEmpty
    rw [hlines]
    cases before with
    | nil => simp [hcloses, hline.closes]
    | cons second before =>
      rw [List.forall_mem_cons] at hbefore
      simp [hbefore.1]
  rw [beginsMetadata_iff hlines, hopens, hempty]
  constructor
  · rintro ⟨hfirst, hsecond, -⟩
    exact ⟨hfirst, hsecond⟩
  · rintro ⟨hfirst, hsecond⟩
    exact ⟨hfirst, hsecond, line, by simp, hcloses⟩

theorem metadataEnd?_of_plain {markup first line : Text} {before after : List Text}
    (hdashes : Text.hasPrefix delimiter markup = true) (hbegins : beginsMetadata markup = true)
    (hlines : Text.lines markup = first :: (before ++ line :: after))
    (hbefore : ∀ earlier ∈ before, (afterMetadata? earlier).isSome = false) (hline : IsPlain line) :
    FrontMatter.metadataEnd? markup =
      some (Text.byteLength (first ++ (before.flatten ++ line))) := by
  have hs : markup ≠ [] := by
    rintro rfl
    cases hlines
  have hlength := length_cutLine_lt hs
  rw [lines_eq_cutLine hs] at hlines
  obtain ⟨rfl, hbody⟩ := List.cons.inj hlines
  have hrest : after.flatten = [] ∨ ∃ t, line = t ++ ['\n'] := by
    rcases eq_nil_or_newline_of_lines hbody with rfl | hnewline
    · exact .inl rfl
    · exact .inr hnewline
  have henv : (⟨.metadataOnly, []⟩ : Surroundings).containers = [] := rfl
  have hread := Surroundings.readMetadata_cursor henv (markup.length + 1)
    (Text.byteLength (cutLine markup).1) (by omega) hbody hbefore (hline.afterMetadata? hrest)
  rw [FrontMatter.metadataEnd?_of_begins hdashes hbegins, hread,
    Text.byteLength_append (cutLine markup).1]
  rfl

theorem metadataEnd?_eq_end? {markup : Text} (hdashes : Text.hasPrefix delimiter markup = true)
    (hplain : PlainMarks markup) :
    (FrontMatter.metadata? markup).isSome = (FrontMatter.metadataEnd? markup).isSome ∧
      FrontMatter.metadataEnd? markup = if opensEmpty markup then none else end? markup := by
  obtain ⟨first, lines, hlines⟩ : ∃ first lines, Text.lines markup = first :: lines := by
    obtain ⟨r, rfl⟩ := FrontMatter.exists_dashes hdashes
    exact ⟨_, _, lines_eq_cutLine (List.cons_ne_nil _ _)⟩
  have hopens := opensMetadata_iff (hplain.opening first (by simp [hlines]))
  have hclosing := hplain.closing
  rw [hlines, List.tail_cons] at hclosing
  refine ⟨?_, ?_⟩
  · rw [FrontMatter.isSome_metadata? hdashes, FrontMatter.isSome_metadataEnd? hdashes]
  · cases hfind : lines.find? fun line => closes line || (afterMetadata? line).isSome with
    | none =>
      have hnone : ∀ line ∈ lines, closes line = false ∧ (afterMetadata? line).isSome = false := by
        intro line hline
        simpa using List.find?_eq_none.1 hfind line hline
      have hbegins : beginsMetadata markup = false := by
        rw [Bool.eq_false_iff, Ne, beginsMetadata_iff hlines]
        rintro ⟨-, -, line, hline, hcloses⟩
        rw [(hnone line hline).2] at hcloses
        cases hcloses
      rw [FrontMatter.metadataEnd?_of_not_begins hdashes hbegins,
        MatterBlock.end?_eq_none hlines fun _ line hline => (hnone line hline).1, ite_self]
    | some line =>
      have hline := hclosing line hfind
      obtain ⟨-, before, after, rfl, hearlier⟩ := List.find?_eq_some_iff_append.1 hfind
      have hbefore : ∀ earlier ∈ before,
          closes earlier = false ∧ (afterMetadata? earlier).isSome = false := by
        intro earlier hmem
        simpa using hearlier earlier hmem
      have hbegins := beginsMetadata_iff_opens hlines hopens hbefore hline
      by_cases hfirst : Text.trimEnd first = delimiter
      · cases hempty : opensEmpty markup with
        | true =>
          have hnot : beginsMetadata markup = false := by simp [hbegins, hempty, ← Bool.not_eq_true]
          rw [FrontMatter.metadataEnd?_of_not_begins hdashes hnot]
          rfl
        | false =>
          have hmatter := hbegins.2 ⟨hfirst, hempty⟩
          rw [metadataEnd?_of_plain hdashes hmatter hlines (fun e he => (hbefore e he).2) hline,
            MatterBlock.end?_of_closes hlines hfirst rfl (fun e he => (hbefore e he).1) hline.closes]
          rfl
      · have hnot : beginsMetadata markup = false := by simp [hbegins, hfirst, ← Bool.not_eq_true]
        rw [FrontMatter.metadataEnd?_of_not_begins hdashes hnot,
          MatterBlock.end?_eq_none hlines fun h => absurd h hfirst, ite_self]

/-- A document with a block between dashes and dots. -/
def dottedMatter : Text := "--- \ntitle: x\n...  \r\n# A\n"

theorem metadataEnd?_eq_end?_dotted :
    Text.hasPrefix delimiter dottedMatter = true ∧ PlainMarks dottedMatter ∧
      (FrontMatter.metadata? dottedMatter).isSome = true ∧
      FrontMatter.metadataEnd? dottedMatter = some 21 ∧ end? dottedMatter = some 21 := by
  have hdashes : Text.hasPrefix delimiter dottedMatter = true := by decide
  have hfind : (Text.lines dottedMatter).tail.find? (fun line =>
      closes line || (afterMetadata? line).isSome) = some ("...  \r\n" : Text) := by decide
  have hfirst : (Text.lines dottedMatter).head? = some ("--- \n" : Text) := by decide
  have hplain : PlainMarks dottedMatter := by
    constructor
    · rw [hfirst]
      rintro first ⟨⟩ -
      rw [show List.drop 3 "--- \n" = [' ', '\n'] from rfl, List.forall_mem_cons]
      exact ⟨by decide, List.forall_mem_singleton.2 (by decide)⟩
    · rw [hfind]
      rintro line ⟨⟩
      exact ⟨'.', 2, .inr rfl, ['\r', '\n'], by decide, rfl⟩
  have hempty : opensEmpty dottedMatter = false := by decide
  have hend : end? dottedMatter = some 21 := by decide
  obtain ⟨hsome, hagree⟩ := metadataEnd?_eq_end? hdashes hplain
  rw [hempty, hend] at hagree
  refine ⟨hdashes, hplain, ?_, hagree, hend⟩
  rw [hsome, hagree]
  rfl

/-- Below a blank line no metadata begins, but the lines up to the next delimiter are a block. -/
theorem end?_blankSecondLine :
    MatterBlock.end? "---\n\n# A\n\n---\nB\n" = some 14 ∧
      FrontMatter.metadata? "---\n\n# A\n\n---\nB\n" = none := by
  refine ⟨by decide, ?_⟩
  have hdashes : Text.hasPrefix delimiter "---\n\n# A\n\n---\nB\n" = true := by decide
  have hnone := FrontMatter.isSome_metadata? hdashes
  have hbegins : beginsMetadata "---\n\n# A\n\n---\nB\n" = false := by decide
  rw [hbegins, Option.isSome_eq_false_iff, Option.isNone_iff_eq_none] at hnone
  exact hnone

end MatterBlock

end Galley.Document
