import Galley.Command.Report
import Galley.Document.Conversion
import Galley.Proofs.Document.Container
import Galley.Proofs.Document.FrontMatter

/-!
# What a report foretells

A report is made without a conversion. It foretells the features that a conversion uses, and whether
a table of contents is inserted, although the conversion decides this on a markup with escaped
dollars (`Report.foretells_conversion`).

Of the attributes it foretells less: one that it calls shown gets no item if its name does not fit
into a token or if the document does not begin with its front matter (`Report.itemNames_prepare`).
-/

namespace Galley.Document

theorem AutoToc.isSome_insert (auto : AutoToc) (markup : Text) (presentation : Bool)
    (folder : Option Text) : (auto.insert markup presentation folder).2.isSome =
      auto.applies markup presentation folder := by
  unfold insert
  split
  · next happlies => exact happlies.symm
  · next happlies => simpa using happlies

/-! ## Shown attributes -/

namespace FrontMatter

theorem itemNames_container (options : Options) (path : Option Text) (markup : Text) :
    itemNames (prepare options path markup).container =
      if Text.hasPrefix "---" markup = true ∧ Features.isPresentation markup = false then
        (extract markup).names.filter (isShown options.allowedKeys)
      else [] := by
  have hcontainer : (prepare options path markup).container =
      Token.substitute
        (ofMarkup markup options.allowedKeys (Features.isPresentation markup)).attributes
        (ofMarkup markup options.allowedKeys (Features.isPresentation markup)).container := rfl
  rw [hcontainer, ofMarkup]
  by_cases hused : isUsed markup options.allowedKeys (Features.isPresentation markup) = true
  · have hidentifiers : ∀ name ∈ (extract markup).names.filter (isShown options.allowedKeys),
        Token.isIdentifier name = true := fun name hname =>
      (Bool.and_eq_true_iff.1 (List.mem_filter.1 hname).2).2
    rw [if_pos (isUsed_iff.1 hused).1, if_pos hused]
    exact itemNames_substitute_items (extract markup) hidentifiers
  · rw [if_neg hused]
    split
    · next hbegins =>
      -- front matter that could be shown is left unread only if nothing is allowed
      have hempty : options.allowedKeys.isEmpty = true := by
        cases hallowed : options.allowedKeys.isEmpty with
        | true => rfl
        | false => exact absurd (isUsed_iff.2 ⟨hbegins, .inl hallowed⟩) hused
      rw [filter_isShown_of_isEmpty hempty]
      rfl
    · rfl

end FrontMatter

end Galley.Document

namespace Galley.Command.Report

open Document (FrontMatter)

/-- A report foretells the features that a conversion of the same file uses, and whether it inserts
a table of contents. -/
theorem foretells_conversion (config : Config) (classes : Document.TocClasses) (file markup : Text) :
    let options := config.options
    let report := ofDocument config file markup
    let doc := Document.prepare options (some file) markup
    let draft := ({ markup } : Document.Draft).applyFeatures options
    let inserted := options.autoToc.insert draft.markup draft.features.presentation
      (PathName.folderName? file)
    let page := Document.joinBackReferences (doc.html options classes)
    doc.insertion = inserted.2 ∧ report.toc = inserted.2.isSome ∧ report.features = doc.features ∧
      Document.convert options classes (some file) markup =
        { body := FrontMatter.wrap doc.container ++
            (if report.features.presentation then Document.Slide.render page else page)
          head := (report.features.includes options).flatMap
            (·.html (Document.assetBase options.assetsBaseUrl))
          onload := report.features.onload options } := by
  refine ⟨rfl, ?_, rfl, ?_⟩
  · rw [Document.AutoToc.isSome_insert, Document.AutoToc.applies_applyFeatures]
    rfl
  · rfl

def reported (config : Config) (markup : Text) (entry : Text × List Text) : ReportedAttribute where
  name := entry.1
  values := entry.2
  shown := !Document.Features.isPresentation markup && config.options.allowedKeys.allows entry.1

theorem attributes_ofDocument (config : Config) (file markup : Text) :
    (ofDocument config file markup).attributes =
      (FrontMatter.extract markup).entries.map (reported config markup) := rfl

theorem shown_congr {config : Config} {file markup : Text} {a b : ReportedAttribute}
    (ha : a ∈ (ofDocument config file markup).attributes)
    (hb : b ∈ (ofDocument config file markup).attributes) (h : a.name = b.name) :
    a.shown = b.shown := by
  obtain ⟨entry, -, rfl⟩ := List.mem_map.1 ha
  obtain ⟨entry', -, rfl⟩ := List.mem_map.1 hb
  exact congrArg (fun name => !Document.Features.isPresentation markup &&
    config.options.allowedKeys.allows name) h

def hasItem (markup : Text) (a : ReportedAttribute) : Bool :=
  a.shown && (Text.hasPrefix "---" markup && Document.Token.isIdentifier a.name)

theorem itemNames_container_eq (config : Config) (file markup : Text) :
    FrontMatter.itemNames (Document.prepare config.options (some file) markup).container =
      ((ofDocument config file markup).attributes.filter (hasItem markup)).map (·.name) := by
  rw [FrontMatter.itemNames_container, attributes_ofDocument, List.filter_map, List.map_map]
  split
  · next hbegins =>
    rw [Document.Attributes.names, List.filter_map]
    refine congrArg (List.map _) (List.filter_congr fun entry _ => ?_)
    simp only [Function.comp_apply, hasItem, reported, FrontMatter.isShown, hbegins, Bool.not_false,
      Bool.true_and]
  · next hnot =>
    have hnone : (FrontMatter.extract markup).entries.filter
        (hasItem markup ∘ reported config markup) = [] := by
      rw [List.filter_eq_nil_iff]
      intro entry _ hitem
      simp only [Function.comp_apply, hasItem, reported, Bool.and_eq_true, Bool.not_eq_true']
        at hitem
      exact hnot ⟨hitem.2.1, hitem.1.1⟩
    rw [hnone]
    rfl

/-- An attribute gets an item in the container at the start of the body if the report calls it
shown, its name fits into a token, and the document begins with its front matter; there are no other
items. -/
theorem itemNames_prepare (config : Config) (classes : Document.TocClasses) (file markup : Text) :
    let options := config.options
    let report := ofDocument config file markup
    let doc := Document.prepare options (some file) markup
    FrontMatter.wrap doc.container <+: (Document.convert options classes (some file) markup).body ∧
      (∀ a ∈ report.attributes, (a.name ∈ FrontMatter.itemNames doc.container ↔
        a.shown = true ∧ Text.hasPrefix "---" markup = true ∧
          Document.Token.isIdentifier a.name = true)) ∧
      List.Sublist (FrontMatter.itemNames doc.container) (report.attributes.map (·.name)) := by
  have hnames := itemNames_container_eq config file markup
  refine ⟨List.prefix_append _ _, fun a ha => ?_, ?_⟩
  · rw [hnames, List.mem_map]
    constructor
    · rintro ⟨b, hb, hname⟩
      obtain ⟨hmem, hitem⟩ := List.mem_filter.1 hb
      rw [hasItem, Bool.and_eq_true, Bool.and_eq_true] at hitem
      rw [shown_congr ha hmem hname.symm, ← hname]
      exact hitem
    · rintro ⟨hshown, hbegins, hidentifier⟩
      have hitem : hasItem markup a = true := by
        rw [hasItem, hshown, hbegins, hidentifier]
        rfl
      exact ⟨a, List.mem_filter.2 ⟨ha, hitem⟩, rfl⟩
  · rw [hnames]
    exact List.filter_sublist.map _

/-- A name with a space does not fit into a token: the report calls the attribute shown, but the
body has no item for it. -/
theorem shown_spacedName :
    let config : Config := { shownKeys := .pattern "*" }
    let markup : Text := "---\nmy key: x\n---\n"
    let doc := Document.prepare config.options (some "doc.md") markup
    (ofDocument config "doc.md" markup).attributes = [⟨"my key", [("x" : Text)], true⟩] ∧
      FrontMatter.itemNames doc.container = [] ∧
      Text.hasInfix "front-matter-container-"
        (Document.convert config.options {} (some "doc.md") markup).body = false := by
  decide +kernel

end Galley.Command.Report
