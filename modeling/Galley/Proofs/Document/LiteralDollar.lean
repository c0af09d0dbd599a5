import Galley.Proofs.Document.Escaped
import Galley.Proofs.Render.Clean

/-!
# Literal dollar signs

Without math a dollar sign is escaped before the document is parsed. The backslash disappears
again where escapes are resolved, in texts and in the targets and titles of links, but it stays in
what is taken as it stands: code, raw HTML and links to themselves. If no dollar sign stands there,
the body has no backslash (`backslash_not_mem_convert`).
-/

namespace Galley.Document

/-! ## Finishing a page -/

theorem backslash_not_mem_joinBackReferences {html : Text} (h : '\\' ∉ html) :
    '\\' ∉ joinBackReferences html := by
  unfold joinBackReferences
  split
  · intro hmem
    rcases Text.mem_of_mem_replace hmem with hmem | hmem
    · exact absurd hmem (by decide)
    · rcases Text.mem_of_mem_replace hmem with hmem | hmem
      · exact absurd hmem (by decide)
      · exact h hmem
  · exact h

namespace Slide

theorem backslash_not_mem_wrapAll {slides : List Slide} (h : ∀ slide ∈ slides, '\\' ∉ slide.html)
    (number : Nat) : '\\' ∉ wrapAll number slides := by
  induction slides generalizing number with
  | nil => exact List.not_mem_nil
  | cons slide slides ih =>
    rw [List.forall_mem_cons] at h
    have hnumber := Text.not_mem_ofNat (c := '\\') (by decide) number
    have htitle : '\\' ∉ (if slide.title then
        " slide_type_title slide'><div class='slide_body slide_title'>"
        else " slide'><div class='slide_body'>" : Text) := by
      split <;> decide
    have hstart : '\\' ∉ ("<!-- Presentation slide " ++ Text.ofNat number ++
        " --> <div class='slide_p" ++ Text.ofNat number : Text) :=
      List.not_mem_append (List.not_mem_append (List.not_mem_append (by decide) hnumber)
        (by decide)) hnumber
    exact List.not_mem_append (List.not_mem_append (List.not_mem_append
      (List.not_mem_append hstart htitle) h.1) (by decide)) (ih h.2 (number + 1))

theorem backslash_not_mem_render {html : Text} (h : '\\' ∉ html) : '\\' ∉ render html := by
  have hpieces : ∀ slide ∈ split html, '\\' ∉ slide.html := by
    unfold split
    split
    · exact List.forall_mem_map.2 fun piece hpiece hmem => h (Text.mem_of_mem_splitOn hpiece hmem)
    · exact fun _ hs => nomatch hs
  unfold render
  split
  · exact h
  · next first slides hsplit =>
    rw [hsplit] at hpieces
    split
    · rw [List.forall_mem_cons] at hpieces
      exact List.not_mem_append hpieces.1 (backslash_not_mem_wrapAll hpieces.2 1)
    · exact backslash_not_mem_wrapAll hpieces 1

end Slide

/-! ## The body -/

/-- Without math, the body of a document without front matter, backslashes and ampersands has no
backslash, if no dollar sign stands in code, in raw HTML or in a link to itself. -/
theorem backslash_not_mem_convert {options : Options} (hmath : options.math = false)
    (htitle : '\\' ∉ options.toc.title) {classes : TocClasses} (hdiv : '\\' ∉ classes.div)
    (hlist : '\\' ∉ classes.list) (path : Option Text) {markup : Text}
    (hmatter : Text.hasPrefix "---" markup = false) (hbackslash : '\\' ∉ markup)
    (hampersand : '&' ∉ markup)
    (hverbatim : ∀ s ∈ Markdown.verbatim options.extensions (prepare options path markup).source,
      '$' ∉ s) :
    '\\' ∉ (convert options classes path markup).body := by
  obtain ⟨htame, hcontainer⟩ := tame_source_prepare path hmatter hbackslash hampersand hmath
  have hhtml : '\\' ∉ (prepare options path markup).html options classes :=
    Render.Renderer.backslash_not_mem_html hmath ⟨htitle, hdiv, hlist⟩ _ htame hverbatim
  have hjoined := backslash_not_mem_joinBackReferences hhtml
  unfold convert Prepared.finish
  rw [hcontainer]
  refine List.not_mem_append List.not_mem_nil ?_
  split
  · exact Slide.backslash_not_mem_render hjoined
  · exact hjoined

/-- Dollar signs in a heading, in a text, in a link and in a label, but none in the code. -/
def pricedList : Text :=
  "# From $1\n\n- a `b` for $5\n- [c$][d$] and ![e$](f$g \"h$\")\n\n[d$]: /i$j\n"

theorem backslash_not_mem_convert_pricedList :
    '\\' ∉ (convert { math := false } {} none pricedList).body :=
  backslash_not_mem_convert rfl (by decide) (by decide) (by decide) none (by decide +kernel)
    (by decide) (by decide) (by decide +kernel)

/-- A dollar sign in code. -/
def pricedCode : Text := "`$x` and $5"

/-- The backslash before a dollar sign in code is shown. -/
theorem body_convert_pricedCode :
    Text.hasPrefix "---" pricedCode = false ∧ '\\' ∉ pricedCode ∧ '&' ∉ pricedCode ∧
      (convert { math := false } {} none pricedCode).body =
        "<p line=\"1\"><code>\\$x</code> and $5</p>\n" ∧
      '\\' ∈ (convert { math := false } {} none pricedCode).body := by
  decide +kernel

end Galley.Document
