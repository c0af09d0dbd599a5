import Galley.Document.Conversion
import Galley.Proofs.Document.AutoToc
import Galley.Proofs.Document.LinkTarget
import Galley.Proofs.Document.Token
import Galley.Proofs.Toc.Marker

/-!
# Lines of a prepared document

Each step that rewrites the markup of a document keeps its newlines; only an inserted table of
contents adds some, and it says how many. So the lines of the source that is parsed map back to
lines of the document, in order.
-/

namespace Galley.Document

/-! ## Rewriting -/

theorem count_escapeDollars (markup : Text) :
    (escapeDollars markup).count '\n' = markup.count '\n' :=
  Text.count_replace (by decide) (by decide) markup

theorem count_rewriteSiteTokens (markup : Text) :
    (rewriteSiteTokens markup).count '\n' = markup.count '\n' := by
  unfold rewriteSiteTokens
  rw [Text.count_replace (by decide) (by decide), Text.count_replace (by decide) (by decide)]

theorem count_breakLines (markup : Text) : (breakLines markup).count '\n' = markup.count '\n' :=
  Text.count_replace (by decide) (by decide) markup

theorem count_hardLineBreaks (markup : Text) :
    (hardLineBreaks markup).count '\n' = markup.count '\n' := by
  unfold hardLineBreaks
  split
  · next block rest hsplit =>
    rw [List.count_append, count_breakLines, ← List.count_append,
      MatterBlock.append_of_split? hsplit]
  · exact count_breakLines markup

theorem count_rewrite (options : Options) (attrs : Attributes) (markup : Text) :
    (rewrite options attrs markup).count '\n' = markup.count '\n' := by
  unfold rewrite
  simp only
  rw [Toc.count_rewriteMarkers, count_encodeLinkTargets]
  split
  · rw [count_hardLineBreaks, count_rewriteSiteTokens, Token.count_substitute]
  · rw [count_rewriteSiteTokens, Token.count_substitute]

theorem count_applyFeatures (draft : Draft) (options : Options) :
    (draft.applyFeatures options).markup.count '\n' = draft.markup.count '\n' := by
  show (if _ then escapeDollars draft.markup else draft.markup).count '\n' = _
  split
  · exact count_escapeDollars draft.markup
  · rfl

/-! ## Inserting -/

def insertedLines (insertion : Option Insertion) : Nat := (insertion.map (·.lines)).getD 0

theorem AutoToc.count_insert (auto : AutoToc) (markup : Text) (presentation : Bool)
    (folder : Option Text) : (auto.insert markup presentation folder).1.count '\n' =
      markup.count '\n' + insertedLines (auto.insert markup presentation folder).2 := by
  obtain ⟨before, inserted, after, -, -, hmarkup, hplace⟩ := exists_placement markup
  unfold AutoToc.insert
  split
  · rw [hplace, hmarkup]
    simp only [List.count_append, insertedLines, Option.map_some, Option.getD_some]
    omega
  · rfl

theorem AutoToc.line_le_of_insert {auto : AutoToc} {markup : Text} {presentation : Bool}
    {folder : Option Text} {insertion : Insertion}
    (h : (auto.insert markup presentation folder).2 = some insertion) :
    1 ≤ insertion.line ∧ insertion.line ≤ markup.count '\n' + 1 := by
  obtain ⟨before, inserted, after, -, -, hmarkup, hplace⟩ := exists_placement markup
  unfold AutoToc.insert at h
  split at h
  · rw [hplace] at h
    obtain rfl := Option.some.inj h
    rw [hmarkup, List.count_append]
    simp only
    omega
  · cases h

theorem Insertion.originalLine_mono (insertion : Insertion) {line line' : Nat} (h : line ≤ line') :
    insertion.originalLine line ≤ insertion.originalLine line' := by
  unfold Insertion.originalLine
  repeat' split
  all_goals omega

/-! ## Prepared documents -/

section prepared

variable (matter : Text → AllowedKeys → Bool → FrontMatter) (options : Options)
  (path : Option Text) (markup : Text)

theorem exists_prepareWith : ∃ attrs presentation folder,
    (prepareWith matter options path markup).source = rewrite options attrs
      (options.autoToc.insert (({ markup } : Draft).applyFeatures options).markup
        presentation folder).1 ∧
    (prepareWith matter options path markup).insertion =
      (options.autoToc.insert (({ markup } : Draft).applyFeatures options).markup
        presentation folder).2 :=
  ⟨_, _, _, rfl, rfl⟩

theorem count_source_prepareWith :
    (prepareWith matter options path markup).source.count '\n' =
      markup.count '\n' + insertedLines (prepareWith matter options path markup).insertion := by
  obtain ⟨attrs, presentation, folder, hsource, hinsertion⟩ :=
    exists_prepareWith matter options path markup
  rw [hsource, hinsertion, count_rewrite, AutoToc.count_insert, count_applyFeatures]

theorem line_le_of_prepareWith {insertion : Insertion}
    (h : (prepareWith matter options path markup).insertion = some insertion) :
    1 ≤ insertion.line ∧ insertion.line ≤ markup.count '\n' + 1 := by
  obtain ⟨attrs, presentation, folder, -, hinsertion⟩ :=
    exists_prepareWith matter options path markup
  have hline := AutoToc.line_le_of_insert (hinsertion.symm.trans h)
  rwa [count_applyFeatures] at hline

theorem Prepared.lineOf_mono (doc : Prepared) {o o' : Nat} (h : o ≤ o') :
    doc.lineOf o ≤ doc.lineOf o' := by
  have hline := LineIndex.lineOf_mono h doc.source
  unfold Prepared.lineOf Prepared.originalLine
  split
  · next insertion _ => exact insertion.originalLine_mono hline
  · exact hline

theorem lineOf_prepareWith_bounds (o : Nat) :
    1 ≤ (prepareWith matter options path markup).lineOf o ∧
      (prepareWith matter options path markup).lineOf o ≤ (LineIndex.ofText markup).size := by
  have hcount := count_source_prepareWith matter options path markup
  have hline := @line_le_of_prepareWith matter options path markup
  have hbefore := Text.newlinesBefore_le_count o (prepareWith matter options path markup).source
  generalize prepareWith matter options path markup = doc at hcount hline hbefore ⊢
  unfold Prepared.lineOf Prepared.originalLine
  rw [LineIndex.lineOf_ofText, LineIndex.size_ofText]
  cases hinsertion : doc.insertion with
  | none =>
    simp only [hinsertion, insertedLines, Option.map_none, Option.getD_none] at hcount ⊢
    omega
  | some insertion =>
    obtain ⟨hpos, hle⟩ := hline hinsertion
    simp only [hinsertion, insertedLines, Option.map_some, Option.getD_some] at hcount ⊢
    simp only [Insertion.originalLine]
    split
    · omega
    · split <;> omega

end prepared

/-- Preparing a document keeps its lines. Each step keeps the newlines of the markup, so the parsed
source has those of the document and of an inserted table of contents; and the line that an offset
of the source belongs to grows with the offset and is a line of the document. -/
theorem prepare_keeps_lines (options : Options) (path : Option Text) (markup : Text) :
    (∀ s, (escapeDollars s).count '\n' = s.count '\n') ∧
    (∀ attrs s, (Token.substitute attrs s).count '\n' = s.count '\n') ∧
    (∀ s, (rewriteSiteTokens s).count '\n' = s.count '\n') ∧
    (∀ s, (hardLineBreaks s).count '\n' = s.count '\n') ∧
    (∀ s, (encodeLinkTargets s).count '\n' = s.count '\n') ∧
    (∀ s, (Toc.rewriteMarkers s).count '\n' = s.count '\n') ∧
    (prepare options path markup).source.count '\n' =
      markup.count '\n' + insertedLines (prepare options path markup).insertion ∧
    (∀ o o', o ≤ o' → (prepare options path markup).lineOf o ≤
      (prepare options path markup).lineOf o') ∧
    ∀ o, 1 ≤ (prepare options path markup).lineOf o ∧
      (prepare options path markup).lineOf o ≤ (LineIndex.ofText markup).size :=
  ⟨count_escapeDollars, Token.count_substitute, count_rewriteSiteTokens, count_hardLineBreaks,
    count_encodeLinkTargets, Toc.count_rewriteMarkers,
    count_source_prepareWith FrontMatter.ofMarkup options path markup,
    fun _ _ h => (prepare options path markup).lineOf_mono h,
    lineOf_prepareWith_bounds FrontMatter.ofMarkup options path markup⟩

end Galley.Document
