import Galley.Proofs.Document.LinkPattern

/-!
# The links of a line

A line of links, with and without titles, and other text between them. The title of the first link that
has one is read up to the last quote before a `)` on the line. So the links behind it are part of that
title, up to the last one with a title of its own, and their targets are not encoded.
-/

namespace Galley.Document.Link

/-! ## Lines of links -/

/-- A text without a newline and without the characters that make a link. -/
def IsPlain (s : Text) : Prop := ∀ c ∈ ['[', ']', '(', ')', '"', '\n'], c ∉ s

instance (s : Text) : Decidable (IsPlain s) :=
  List.decidableBAll (fun c => c ∉ s) ['[', ']', '(', ')', '"', '\n']

/-- A link whose text and target are plain, with a trimmed target, and perhaps with a plain title in quotes
behind one space. -/
structure IsSimple (link : Link) : Prop where
  text_ne_nil : link.text ≠ []
  text : IsPlain link.text
  target_ne_nil : link.target ≠ []
  target : IsPlain link.target
  trimmed : Text.Trimmed link.target
  title : link.title = [] ∨
    ∃ inner, inner ≠ [] ∧ IsPlain inner ∧ link.title = ' ' :: '"' :: (inner ++ ['"'])

def hasTitle (link : Link) : Bool := !link.title.isEmpty

/-- The links of a line, each with the text before it. -/
def IsLine (links : List (Text × Link)) : Prop := ∀ found ∈ links, IsPlain found.1 ∧ found.2.IsSimple

/-- The links of a line as they are encoded, given whether a link before them has a title: behind the first
title a target is only encoded if no title follows. -/
def encodedOnLine : Bool → List (Text × Link) → List (Text × Link)
  | _, [] => []
  | behindTitle, (before, link) :: links =>
    (before, if behindTitle && ((before, link) :: links).any (hasTitle ·.2) then link else link.encoded) ::
      encodedOnLine (behindTitle || link.hasTitle) links

variable {link : Link} {links : List (Text × Link)} {before z r rest title body tail : Text}

theorem hasTitle_eq_false_iff : link.hasTitle = false ↔ link.title = [] := by
  simp [hasTitle]

theorem isLine_cons_iff :
    IsLine ((before, link) :: links) ↔ (IsPlain before ∧ link.IsSimple) ∧ IsLine links :=
  List.forall_mem_cons

/-! ## One link of a line -/

theorem IsSimple.isTitle (h : link.IsSimple) (htitle : link.hasTitle = true) : IsTitle link.title := by
  rcases h.title with hnone | ⟨inner, -, hinner, heq⟩
  · rw [hasTitle_eq_false_iff.2 hnone] at htitle
    cases htitle
  · exact ⟨[' '], inner, by simp, by simp [show Text.isBlank ' ' = true by decide],
      hinner '\n' (by simp), heq⟩

theorem IsSimple.target? (h : link.IsSimple) (hend : ending? z = some (title, rest)) :
    Link.target? (link.target ++ z) = some (link.target, title, rest) := by
  refine target?_append_iff.2 ⟨h.target '\n' (by simp), hend, fun b hb hsuffix => ?_⟩
  rw [Option.eq_none_iff_forall_ne_some]
  rintro ⟨t, r⟩ hfound
  rcases ending?_eq_some_iff.1 hfound with htitle | ⟨-, hclose⟩
  · obtain ⟨blanks, q, body, -, hblanks, -, -, ⟨q', rfl, -⟩ | ⟨more, rfl, -⟩⟩ := title?_append_cases htitle
    · exact h.target '"' (by simp) (hsuffix.subset (by simp))
    · exact hb (h.trimmed.eq_nil_of_isBlank hsuffix fun c hc => hblanks c (List.mem_append_left more hc))
  · cases b with
    | nil => exact hb rfl
    | cons c b =>
      obtain ⟨rfl, -⟩ := List.cons.inj hclose
      exact h.target ')' (by simp) (hsuffix.subset List.mem_cons_self)

theorem IsSimple.atStart? (h : link.IsSimple)
    (hend : ending? (title ++ ')' :: rest) = some (title, rest)) :
    Link.atStart? (source { link with title := title } ++ rest) = some { link with title := title } := by
  refine atStart?_source_iff.2 ⟨h.text '\n' (by simp), fun hpart => ?_, h.target? hend⟩
  exact h.text ']' (by simp) (hpart.subset List.mem_cons_self)

theorem IsSimple.newline_not_mem_source (h : link.IsSimple) : '\n' ∉ link.source := by
  have htitle : '\n' ∉ link.title := by
    rcases h.title with heq | ⟨inner, -, hinner, heq⟩
    · simp [heq]
    · simpa [heq] using hinner '\n' (by simp)
  have htext := h.text '\n' (by simp)
  have htarget := h.target '\n' (by simp)
  simp [source, htitle, htext, htarget]

theorem IsSimple.encodeLinkTargets_of_not_hasTitle (h : link.IsSimple) (htitle : link.hasTitle = false)
    (r : Text) : encodeLinkTargets (link.source ++ r) = link.encoded.source ++ encodeLinkTargets r := by
  have hend : ending? (link.title ++ ')' :: r) = some (link.title, r) := by
    rw [hasTitle_eq_false_iff.1 htitle]
    exact ending?_eq_some_iff.2 (.inr ⟨rfl, rfl⟩)
  exact encodeLinkTargets_source (h.atStart? hend)

/-- The title of a link goes on to the last quote that can end it on the line. -/
theorem IsSimple.encodeLinkTargets_of_hasTitle (h : link.IsSimple) (htitle : link.hasTitle = true)
    (r : Text) :
    encodeLinkTargets (link.source ++ r) = link.encoded.source ++
      match throughQuote? r with
      | none => encodeLinkTargets r
      | some (body, rest) => body ++ ')' :: encodeLinkTargets rest := by
  have hread := title?_of_isTitle (h.isTitle htitle) r
  cases hr : throughQuote? r with
  | none =>
    rw [hr] at hread
    exact encodeLinkTargets_source (h.atStart? (ending?_eq_some_iff.2 (.inl hread)))
  | some found =>
    obtain ⟨body, rest⟩ := found
    have hsplit := eq_of_throughQuote? hr
    rw [hr] at hread
    have hend : ending? (link.title ++ ')' :: body ++ ')' :: rest) =
        some (link.title ++ ')' :: body, rest) := by
      refine ending?_eq_some_iff.2 (.inl ?_)
      rw [List.append_assoc, List.cons_append, ← hsplit]
      exact hread
    have hsource : link.source ++ r = source { link with title := link.title ++ ')' :: body } ++ rest := by
      simp [source, hsplit]
    rw [hsource, encodeLinkTargets_source (h.atStart? hend)]
    simp [source, encoded_eq]

/-! ## A whole line -/

theorem IsPlain.encodeLinkTargets_append (h : IsPlain before) (s : Text) :
    encodeLinkTargets (before ++ s) = before ++ encodeLinkTargets s :=
  encodeLinkTargets_append_of_not_mem (h '[' (by simp)) s

theorem IsPlain.encodeLinkTargets_eq (h : IsPlain tail) : encodeLinkTargets tail = tail := by
  have hsame := h.encodeLinkTargets_append []
  rw [List.append_nil] at hsame
  exact hsame.trans (List.append_nil tail)

theorem encodedOnLine_of_not_hasTitle (h : links.any (hasTitle ·.2) = false) (behindTitle : Bool) :
    encodedOnLine behindTitle links = links.map fun (before, link) => (before, link.encoded) := by
  induction links generalizing behindTitle with
  | nil => rfl
  | cons found links ih =>
    obtain ⟨before, link⟩ := found
    rw [encodedOnLine, h, Bool.and_false]
    rw [List.any_cons, Bool.or_eq_false_iff] at h
    rw [ih h.2]
    rfl

theorem throughQuote?_written_of_not_hasTitle (hlinks : IsLine links) (htail : IsPlain tail)
    (h : links.any (hasTitle ·.2) = false) : throughQuote? (written links tail) = none := by
  have hquote : '"' ∉ written links tail := by
    induction links with
    | nil => exact htail '"' (by simp)
    | cons found links ih =>
      obtain ⟨before, link⟩ := found
      rw [isLine_cons_iff] at hlinks
      obtain ⟨⟨hbefore, hlink⟩, hlinks⟩ := hlinks
      rw [List.any_cons, Bool.or_eq_false_iff] at h
      have htitle : link.title = [] := hasTitle_eq_false_iff.1 h.1
      have hbefore := hbefore '"' (by simp)
      have htext := hlink.text '"' (by simp)
      have htarget := hlink.target '"' (by simp)
      have hrest := ih hlinks h.2
      rw [written_cons]
      simp [source, htitle, hbefore, htext, htarget, hrest]
  rw [throughQuote?_eq_none_iff]
  exact fun hpart => hquote ((List.takeWhile_sublist _).mem (hpart.subset List.mem_cons_self))

theorem encodeLinkTargets_written_of_not_hasTitle (hlinks : IsLine links) (htail : IsPlain tail)
    (h : links.any (hasTitle ·.2) = false) (behindTitle : Bool) :
    encodeLinkTargets (written links tail) = written (encodedOnLine behindTitle links) tail := by
  rw [encodedOnLine_of_not_hasTitle h]
  induction links with
  | nil => exact htail.encodeLinkTargets_eq
  | cons found links ih =>
    obtain ⟨before, link⟩ := found
    rw [isLine_cons_iff] at hlinks
    obtain ⟨⟨hbefore, hlink⟩, hlinks⟩ := hlinks
    rw [List.any_cons, Bool.or_eq_false_iff] at h
    rw [written_cons, hbefore.encodeLinkTargets_append, hlink.encodeLinkTargets_of_not_hasTitle h.1,
      ih hlinks h.2, List.map_cons, written_cons]

/-- Where a link of a line has a title, a title that began before ends with the last such link, and the
encoding goes on behind it. -/
theorem exists_throughQuote?_written (hlinks : IsLine links) (htail : IsPlain tail)
    (h : links.any (hasTitle ·.2) = true) :
    ∃ body rest, throughQuote? (written links tail) = some (body, rest) ∧
      body ++ ')' :: encodeLinkTargets rest = written (encodedOnLine true links) tail := by
  induction links with
  | nil => cases h
  | cons found links ih =>
    obtain ⟨before, link⟩ := found
    rw [isLine_cons_iff] at hlinks
    obtain ⟨⟨hbefore, hlink⟩, hlinks⟩ := hlinks
    have hkept : encodedOnLine true ((before, link) :: links) = (before, link) :: encodedOnLine true links := by
      rw [encodedOnLine, h]
      rfl
    have hnewline : '\n' ∉ before ++ link.source := by
      simp [hbefore '\n' (by simp), hlink.newline_not_mem_source]
    rw [hkept, written_cons, written_cons]
    cases hmore : links.any (hasTitle ·.2) with
    | true =>
      obtain ⟨body, rest, hthrough, hwritten⟩ := ih hlinks hmore
      refine ⟨before ++ link.source ++ body, rest, ?_, ?_⟩
      · rw [← List.append_assoc]
        exact throughQuote?_append hnewline hthrough
      · rw [← hwritten]
        simp
    | false =>
      -- This link is the last one with a title.
      have htitle : link.hasTitle = true := by
        rwa [List.any_cons, hmore, Bool.or_false] at h
      obtain ⟨blanks, inner, -, -, -, heq⟩ := hlink.isTitle htitle
      have hsource : link.source =
          "[" ++ link.text ++ "](" ++ link.target ++ blanks ++ '"' :: inner ++ ['"', ')'] := by
        simp [source, heq]
      have hsplit (s : Text) : before ++ (link.source ++ s) =
          before ++ ("[" ++ link.text ++ "](" ++ link.target ++ blanks ++ '"' :: inner) ++
            '"' :: ')' :: s := by
        simp [hsource]
      rw [hsource, ← List.append_assoc] at hnewline
      refine ⟨before ++ ("[" ++ link.text ++ "](" ++ link.target ++ blanks ++ '"' :: inner) ++ ['"'],
        written links tail, ?_, ?_⟩
      · rw [hsplit, throughQuote?_quoted (fun hmem => hnewline (List.mem_append_left _ hmem)),
          throughQuote?_written_of_not_hasTitle hlinks htail hmore]
        rfl
      · rw [encodeLinkTargets_written_of_not_hasTitle hlinks htail hmore true, hsplit]
        simp

theorem encodeLinkTargets_written_eq (hlinks : IsLine links) (htail : IsPlain tail) :
    encodeLinkTargets (written links tail) = written (encodedOnLine false links) tail := by
  induction links with
  | nil => exact htail.encodeLinkTargets_eq
  | cons found links ih =>
    obtain ⟨before, link⟩ := found
    rw [isLine_cons_iff] at hlinks
    obtain ⟨⟨hbefore, hlink⟩, hlinks⟩ := hlinks
    rw [written_cons, hbefore.encodeLinkTargets_append, encodedOnLine, Bool.false_and,
      if_neg Bool.false_ne_true, written_cons, Bool.false_or]
    cases htitle : link.hasTitle with
    | false => rw [hlink.encodeLinkTargets_of_not_hasTitle htitle, ih hlinks]
    | true =>
      rw [hlink.encodeLinkTargets_of_hasTitle htitle]
      cases hmore : links.any (hasTitle ·.2) with
      | true =>
        obtain ⟨body, rest, hthrough, hwritten⟩ := exists_throughQuote?_written hlinks htail hmore
        rw [hthrough, ← hwritten]
      | false =>
        rw [throughQuote?_written_of_not_hasTitle hlinks htail hmore,
          encodeLinkTargets_written_of_not_hasTitle hlinks htail hmore true]

/-! ## Which targets are encoded -/

theorem encodedOnLine_eq_map_iff (hlinks : IsLine links) (behindTitle : Bool) :
    encodedOnLine behindTitle links = links.map (fun (before, link) => (before, link.encoded)) ↔
      ∀ front before link back, links = front ++ (before, link) :: back →
        (behindTitle || front.any (hasTitle ·.2)) = true →
        ((before, link) :: back).any (hasTitle ·.2) = true → ' ' ∉ link.target := by
  induction links generalizing behindTitle with
  | nil => simp [encodedOnLine]
  | cons found links ih =>
    obtain ⟨before, link⟩ := found
    rw [isLine_cons_iff] at hlinks
    obtain ⟨⟨-, hlink⟩, hlinks⟩ := hlinks
    have hkept : link = link.encoded ↔ ' ' ∉ link.target := by
      rw [encoded_eq]
      constructor
      · intro h
        rw [congrArg Link.target h]
        exact space_not_mem_encodeTarget _
      · intro hspace
        rw [encodeTarget_eq_self hlink.trimmed hspace]
    have hhere : (if behindTitle && ((before, link) :: links).any (hasTitle ·.2) then link
          else link.encoded) = link.encoded ↔
        (behindTitle = true → ((before, link) :: links).any (hasTitle ·.2) = true →
          ' ' ∉ link.target) := by
      rw [← hkept]
      split
      · next hswallowed =>
        rw [Bool.and_eq_true] at hswallowed
        exact ⟨fun h _ _ => h, fun h => h hswallowed.1 hswallowed.2⟩
      · next hswallowed =>
        rw [Bool.and_eq_true] at hswallowed
        exact iff_of_true rfl fun hbehind htitle => absurd ⟨hbehind, htitle⟩ hswallowed
    rw [encodedOnLine, List.map_cons, List.cons.injEq, Prod.mk.injEq, and_iff_right rfl, hhere,
      ih hlinks]
    constructor
    · rintro ⟨hfirst, hlater⟩ front before' link' back hsplit hbehind htitle
      cases front with
      | nil =>
        obtain ⟨heq, rfl⟩ := List.cons.inj hsplit
        obtain ⟨rfl, rfl⟩ := Prod.mk.inj heq
        exact hfirst (by simpa using hbehind) htitle
      | cons found front =>
        obtain ⟨rfl, hrest⟩ := List.cons.inj hsplit
        refine hlater front before' link' back hrest ?_ htitle
        rwa [List.any_cons, ← Bool.or_assoc] at hbehind
    · intro h
      refine ⟨fun hbehind => h [] before link links rfl (by simp [hbehind]), ?_⟩
      intro front before' link' back hsplit hbehind
      refine h ((before, link) :: front) before' link' back (by rw [hsplit]; rfl) ?_
      rwa [List.any_cons, ← Bool.or_assoc]

theorem countP_written_encodedOnLine (links : List (Text × Link)) (behindTitle : Bool) :
    (written (links.map fun (before, link) => (before, link.encoded)) tail).countP Text.isBlank ≤
      (written (encodedOnLine behindTitle links) tail).countP Text.isBlank ∧
    ((written (links.map fun (before, link) => (before, link.encoded)) tail).countP Text.isBlank =
        (written (encodedOnLine behindTitle links) tail).countP Text.isBlank →
      encodedOnLine behindTitle links = links.map fun (before, link) => (before, link.encoded)) := by
  induction links generalizing behindTitle with
  | nil => exact ⟨Nat.le_refl _, fun _ => rfl⟩
  | cons found links ih =>
    obtain ⟨before, link⟩ := found
    obtain ⟨hle, hsame⟩ := ih (behindTitle || link.hasTitle)
    obtain ⟨hlink, hlinkSame⟩ := countP_source link
    rw [encodedOnLine, List.map_cons, written_cons, written_cons]
    rw [List.countP_append, List.countP_append, List.countP_append, List.countP_append]
    split
    · refine ⟨by omega, fun heq => ?_⟩
      rw [hsame (by omega)]
      show (before, link) :: _ = (before, link.encoded) :: _
      rw [hlinkSame (by omega)]
    · refine ⟨by omega, fun heq => ?_⟩
      rw [hsame (by omega)]

end Galley.Document.Link

namespace Galley.Document

open Link

/-- On a line of links a target is not encoded exactly if a link before it has a title and so has this link
or one behind it. So every target is encoded exactly if none of these has a space. -/
theorem encodeLinkTargets_line {links : List (Text × Link)} {tail : Text} (hlinks : IsLine links)
    (htail : IsPlain tail) :
    encodeLinkTargets (written links tail) = written (encodedOnLine false links) tail ∧
    (encodeLinkTargets (written links tail) = written (links.map fun (before, link) =>
        (before, { link with target := Text.replace " " "%20" link.target })) tail ↔
      ∀ front before link back, links = front ++ (before, link) :: back →
        front.any (hasTitle ·.2) = true → ((before, link) :: back).any (hasTitle ·.2) = true →
        ' ' ∉ link.target) := by
  have hread := encodeLinkTargets_written_eq hlinks htail
  refine ⟨hread, ?_⟩
  have hencoded : (links.map fun (before, link) =>
        (before, { link with target := Text.replace " " "%20" link.target })) =
      links.map fun (before, link) => (before, link.encoded) := by
    refine List.map_congr_left fun found hfound => ?_
    have htrim := (hlinks found hfound).2.trimmed.trim_eq
    show (found.1, _) = (found.1, found.2.encoded)
    unfold encoded
    rw [htrim]
  have hsame := encodedOnLine_eq_map_iff hlinks false
  rw [hread, hencoded]
  refine Iff.trans ⟨fun h => ?_, fun h => by rw [h]⟩ hsame
  exact (countP_written_encodedOnLine links false).2 (congrArg _ h.symm)

/-- The title of the first link runs to the end of the third one, so the targets of the second and the third
are not encoded. -/
theorem encodeLinkTargets_line_fourLinks :
    IsLine [([], ⟨['a'], "b c", " \"s\""⟩), ([' '], ⟨['d'], "e f", []⟩),
      ([' '], ⟨['g'], "h i", " \"t\""⟩), (", ", ⟨['j'], "k l", []⟩)] ∧
    IsPlain ['.'] ∧
    encodeLinkTargets "[a](b c \"s\") [d](e f) [g](h i \"t\"), [j](k l)." =
      "[a](b%20c \"s\") [d](e f) [g](h i \"t\"), [j](k%20l)." := by
  have hsimple {text target title : Text} (htext : text ≠ [] ∧ IsPlain text)
      (htarget : target ≠ [] ∧ IsPlain target ∧ Text.Trimmed target)
      (htitle : title = [] ∨
        ∃ inner, inner ≠ [] ∧ IsPlain inner ∧ title = ' ' :: '"' :: (inner ++ ['"'])) :
      IsSimple ⟨text, target, title⟩ :=
    ⟨htext.1, htext.2, htarget.1, htarget.2.1, htarget.2.2, htitle⟩
  have hlinks : IsLine [([], ⟨['a'], "b c", " \"s\""⟩), ([' '], ⟨['d'], "e f", []⟩),
      ([' '], ⟨['g'], "h i", " \"t\""⟩), (", ", ⟨['j'], "k l", []⟩)] := by
    simp only [isLine_cons_iff]
    refine ⟨⟨by decide, hsimple (by decide) (by decide) (.inr ⟨['s'], by decide⟩)⟩,
      ⟨by decide, hsimple (by decide) (by decide) (.inl rfl)⟩,
      ⟨by decide, hsimple (by decide) (by decide) (.inr ⟨['t'], by decide⟩)⟩,
      ⟨by decide, hsimple (by decide) (by decide) (.inl rfl)⟩, by simp [IsLine]⟩
  have htail : IsPlain ['.'] := by decide
  exact ⟨hlinks, htail, (encodeLinkTargets_line hlinks htail).1⟩

/-- The first of two titles on a line runs to the end of the second one, so the target of the second link is
not encoded. -/
theorem encodeLinkTargets_twoTitles :
    encodeLinkTargets "[a](b \"s\") [d](e f \"g\")" = "[a](b \"s\") [d](e f \"g\")" ∧
    encodeLinkTargets "[a](b \"s\") [d](e f \"g\")" ≠ "[a](b \"s\") [d](e%20f \"g\")" := by
  decide +kernel

end Galley.Document
