import Galley.Document.Slides
import Galley.Proofs.Text.Split

/-!
# The slides of a presentation

The pieces of a page between its rules are the slides. The presentation holds each of them once, in
order, in an element with its number; only blanks before the first rule stay as they are. No rule is
left, so making a presentation of a presentation changes nothing (`Slide.render_partition`).
-/

namespace Galley.Document.Slide

/-! ## Around a slide -/

def opening (number : Nat) (title : Bool) : Text :=
  "<!-- Presentation slide " ++ Text.ofNat number ++ " --> <div class='slide_p" ++ Text.ofNat number
    ++ (if title then " slide_type_title slide'><div class='slide_body slide_title'>"
      else " slide'><div class='slide_body'>" : Text)

def closing : Text := "</div></div>\n"

theorem wrapped_eq (slide : Slide) (number : Nat) :
    slide.wrapped number = opening number slide.title ++ slide.html ++ closing := rfl

theorem wrapAll_eq (number : Nat) (slides : List Slide) : wrapAll number slides =
    (slides.zipIdx number).flatMap fun (slide, n) =>
      opening n slide.title ++ slide.html ++ closing := by
  induction slides generalizing number with
  | nil => rfl
  | cons slide rest ih => rw [wrapAll, ih, wrapped_eq, List.zipIdx_cons, List.flatMap_cons]

/-! ## No rule is left -/

section rule

variable {c : Char} {u s rest : Text}

theorem isInfix_behind_tag (hc : c ≠ 'h') (hbracket : '<' ∉ c :: u)
    (h : separator <:+: '<' :: c :: (u ++ s)) : separator <:+: s := by
  rcases List.infix_cons_iff.1 h with hprefix | hinfix
  · have hsecond := (List.cons_prefix_cons.1 hprefix).2
    exact absurd (List.cons_prefix_cons.1 hsecond).1.symm hc
  · exact Text.isInfix_of_isInfix_append_of_head (u := c :: u) hbracket hinfix

theorem isInfix_behind_opening {number : Nat} {title : Bool}
    (h : separator <:+: opening number title ++ s) : separator <:+: s := by
  have hdigits : '<' ∉ Text.ofNat number := Text.not_mem_ofNat (by decide) number
  -- the comment, and then the tags of the two elements around the slide
  have hcomment : opening number title ++ s =
      '<' :: '!' :: (("-- Presentation slide " ++ Text.ofNat number ++ " --> " : Text) ++
        '<' :: 'd' :: (("iv class='slide_p" ++ Text.ofNat number : Text) ++
          ((if title then " slide_type_title slide'><div class='slide_body slide_title'>"
            else " slide'><div class='slide_body'>" : Text) ++ s))) := by
    unfold opening
    simp only [List.append_assoc]
    rfl
  have helements : ∀ slide body : Text, '<' ∉ slide → '<' ∉ body →
      separator <:+: '<' :: 'd' :: (("iv class='slide_p" ++ Text.ofNat number : Text) ++
        ((slide ++ '<' :: 'd' :: body) ++ s)) → separator <:+: s := by
    intro slide body hslide hbody hinfix
    have hinside := isInfix_behind_tag (c := 'd') (s := '<' :: 'd' :: (body ++ s))
      (u := "iv class='slide_p" ++ Text.ofNat number ++ slide) (by decide)
      (by simp [hdigits, hslide]) (by simpa using hinfix)
    exact isInfix_behind_tag (by decide) (by simp [hbody]) hinside
  rw [hcomment] at h
  have htags := isInfix_behind_tag (by decide) (by simp [hdigits]) h
  cases title with
  | true =>
    exact helements " slide_type_title slide'>" "iv class='slide_body slide_title'>"
      (by decide) (by decide) htags
  | false => exact helements " slide'>" "iv class='slide_body'>" (by decide) (by decide) htags

theorem isInfix_of_isInfix_slide {number : Nat} {title : Bool} {html : Text}
    (h : separator <:+: opening number title ++ html ++ closing ++ rest) :
    separator <:+: html ∨ separator <:+: rest := by
  rw [List.append_assoc, List.append_assoc] at h
  have hhtml := isInfix_behind_opening h
  have hclosing : closing ++ rest =
      '<' :: ("/div>" ++ '<' :: '/' :: (("div>\n" : Text) ++ rest)) := rfl
  rw [hclosing] at hhtml
  refine (Text.isInfix_append_cons_of_head (by decide) hhtml).imp_right fun hbehind => ?_
  have hsecond := isInfix_behind_tag (c := '/') (u := "div>") (by decide) (by decide) hbehind
  exact isInfix_behind_tag (by decide) (by decide) hsecond

theorem not_isInfix_wrapAll {slides : List Slide}
    (h : ∀ slide ∈ slides, ¬ separator <:+: slide.html) (number : Nat) : ¬ separator <:+: wrapAll number slides := by
  induction slides generalizing number with
  | nil => exact fun hinfix => by cases List.infix_nil.1 hinfix
  | cons slide slides ih =>
    rw [List.forall_mem_cons] at h
    rw [wrapAll, wrapped_eq]
    intro hinfix
    exact (isInfix_of_isInfix_slide hinfix).elim h.1 (ih h.2 (number + 1))

end rule

/-! ## The presentation -/

/-- The blanks before the first rule, if nothing else stands there. They become no slide. -/
def leading (pieces : List Slide) : List Slide :=
  (pieces.take 1).filter fun piece => piece.html.all Text.isBlank

def shown (pieces : List Slide) : List Slide := pieces.drop (leading pieces).length

theorem leading_append_shown (pieces : List Slide) : leading pieces ++ shown pieces = pieces := by
  cases pieces with
  | nil => rfl
  | cons first rest =>
    cases hblank : first.html.all Text.isBlank <;> simp [leading, shown, hblank]

/-- Only blanks before the first rule are written as they are. -/
theorem render_eq {html : Text} (h : split html ≠ []) : render html =
    (leading (split html)).flatMap Slide.html ++ wrapAll 1 (shown (split html)) := by
  obtain ⟨first, rest, hpieces⟩ := List.exists_cons_of_ne_nil h
  unfold render
  rw [hpieces]
  simp only [Text.isEmpty_trim]
  cases hblank : first.html.all Text.isBlank <;> simp [leading, shown, hblank]

theorem split_of_isInfix {html : Text} (h : separator <:+: html) :
    split html = (Text.splitOn separator html).map ofHtml :=
  if_pos (Text.hasInfix_iff.2 h)

theorem split_of_not_isInfix {html : Text} (h : ¬ separator <:+: html) : split html = [] :=
  if_neg fun hinfix => h (Text.hasInfix_iff.1 hinfix)

theorem render_of_not_isInfix {html : Text} (h : ¬ separator <:+: html) : render html = html := by
  rw [render, split_of_not_isInfix h]

theorem not_isInfix_render (html : Text) : ¬ separator <:+: render html := by
  by_cases hrule : separator <:+: html
  · have hsplit := split_of_isInfix hrule
    have hpieces : ∀ piece ∈ split html, ¬ separator <:+: piece.html := by
      rw [hsplit]
      exact List.forall_mem_map.2 fun piece hpiece =>
        Text.not_isInfix_of_mem_splitOn (List.cons_ne_nil _ _) hpiece
    have hne : split html ≠ [] := by
      rw [hsplit]
      exact fun hnil => Text.splitFrom_ne_nil separator 0 html (List.map_eq_nil_iff.1 hnil)
    have hblanks : '<' ∉ (leading (split html)).flatMap Slide.html := by
      rw [List.mem_flatMap]
      rintro ⟨piece, hpiece, hmem⟩
      have hblank := List.all_eq_true.1 (List.mem_filter.1 hpiece).2 _ hmem
      exact absurd hblank (by decide)
    have hshown : ∀ piece ∈ shown (split html), ¬ separator <:+: piece.html :=
      fun piece hpiece => hpieces piece (List.mem_of_mem_drop hpiece)
    rw [render_eq hne]
    exact fun hinfix => not_isInfix_wrapAll hshown 1
      (Text.isInfix_of_isInfix_append_of_head hblanks hinfix)
  · rwa [render_of_not_isInfix hrule]

/-- The pieces of a page with rules, with a rule between them, are the page. In the presentation
each piece stands once and in order, in an element with its number, but for blanks before the first
rule. No rule is left, so a presentation of the presentation is the same. -/
theorem render_partition (html : Text) :
    let pieces := split html
    (0 < Text.places separator html →
      pieces.length = Text.places separator html + 1 ∧
      Text.joinWith separator (pieces.map Slide.html) = html ∧
      leading pieces ++ shown pieces = pieces ∧
      render html = (leading pieces).flatMap Slide.html ++
        ((shown pieces).zipIdx 1).flatMap fun (slide, number) =>
          opening number slide.title ++ slide.html ++ closing) ∧
    ¬ separator <:+: render html ∧ render (render html) = render html := by
  intro pieces
  have hnone : ¬ separator <:+: render html := not_isInfix_render html
  refine ⟨fun hplaces => ?_, hnone, render_of_not_isInfix hnone⟩
  have hsplit := split_of_isInfix (Text.places_pos_iff.1 hplaces)
  have hlength : pieces.length = Text.places separator html + 1 := by
    show (split html).length = _
    rw [hsplit, List.length_map]
    exact Text.length_splitOn (by decide) html
  have hjoin : Text.joinWith separator (pieces.map Slide.html) = html := by
    have hhtml : (split html).map Slide.html = Text.splitOn separator html := by
      rw [hsplit, List.map_map]
      exact List.map_id _
    show Text.joinWith separator ((split html).map Slide.html) = html
    rw [hhtml]
    exact Text.joinWith_splitOn (List.cons_ne_nil _ _) html
  have hne : split html ≠ [] := List.ne_nil_of_length_eq_add_one hlength
  exact ⟨hlength, hjoin, leading_append_shown pieces, (render_eq hne).trans (by rw [wrapAll_eq])⟩

/-- Blanks, a title, an empty slide, and a slide that holds a part of a rule. -/
def fourPieces : Text := " \n<hr />\n<h1>T</h1><hr /><hr /><hr <p>x</p>"

theorem render_partition_fourPieces :
    0 < Text.places separator fourPieces ∧
      (split fourPieces).map Slide.html =
        [(" \n" : Text), ("\n<h1>T</h1>" : Text), [], ("<hr <p>x</p>" : Text)] ∧
      Text.joinWith separator ((split fourPieces).map Slide.html) = fourPieces ∧
      render fourPieces = " \n" ++ (opening 1 true ++ "\n<h1>T</h1>" ++ closing) ++
        (opening 2 false ++ closing) ++ (opening 3 false ++ "<hr <p>x</p>" ++ closing) := by
  have hplaces : 0 < Text.places separator fourPieces := by decide
  obtain ⟨-, hjoin, -, hrender⟩ := (render_partition fourPieces).1 hplaces
  exact ⟨hplaces, by decide, hjoin, hrender.trans (by decide +kernel)⟩

end Galley.Document.Slide
