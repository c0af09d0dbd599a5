import Galley.Markdown.InlineReader
import Galley.Proofs.Markdown.Tame.Link

/-!
# Parts of tame texts that are read whole

Code, links to themselves and raw HTML are taken from a text as they stand, so an escaped dollar
sign in them keeps its backslash. They end before or behind a character that is no backslash, so
with a backslash they have the dollar sign that it escapes. The target and the title of a link are
resolved and have no backslash.
-/

namespace Galley.Markdown

/-! ## Code -/

theorem eq_of_codeBody? {n fuel : Nat} {s body : Text} (h : codeBody? n fuel s = some body) :
    ∃ rest, s = body ++ '\x60' :: rest := by
  induction fuel generalizing s body with
  | zero => cases h
  | succ fuel ih =>
    let plain := s.takeWhile (· ≠ '\x60')
    let rest := s.drop plain.length
    let ticks := runLength '\x60' rest
    have hs : s = plain ++ rest := (List.prefix_iff_eq_append.1 (List.takeWhile_prefix _)).symm
    have hrest : rest = List.replicate ticks '\x60' ++ rest.drop ticks := by
      have htake : rest.takeWhile (· == '\x60') = List.replicate ticks '\x60' := by
        refine List.eq_replicate_iff.2 ⟨rfl, fun c hc => ?_⟩
        have hall : (rest.takeWhile (· == '\x60')).all (· == '\x60') = true := List.all_takeWhile
        simpa using List.all_eq_true.1 hall c hc
      rw [← htake, drop_runLength, List.takeWhile_append_dropWhile]
    change (if ticks = 0 then none else if ticks = n then some plain
      else (codeBody? n fuel (rest.drop ticks)).map fun body =>
        plain ++ List.replicate ticks '\x60' ++ body) = some body at h
    split at h
    · cases h
    · next hne =>
      split at h
      · obtain rfl := Option.some.inj h
        obtain ⟨k, hk⟩ := Nat.exists_eq_succ_of_ne_zero hne
        refine ⟨List.replicate k '\x60' ++ rest.drop ticks, ?_⟩
        rw [hk, List.replicate_succ] at hrest
        rw [hk, ← List.cons_append, ← hrest]
        exact hs
      · obtain ⟨inner, hinner, rfl⟩ := Option.map_eq_some_iff.1 h
        obtain ⟨behind, hbehind⟩ := ih hinner
        refine ⟨behind, ?_⟩
        rw [List.append_assoc, List.append_assoc, ← hbehind, ← hrest]
        exact hs

theorem dollared_codeText {body : Text} (h : Dollared body) : Dollared (codeText body) := by
  have hs : Dollared (body.map fun c => if isEnding c then ' ' else c) := by
    have hkept : ∀ c, isEnding c = false → c ≠ ' ' →
        (c ∈ body.map (fun c => if isEnding c then ' ' else c) ↔ c ∈ body) := by
      intro c hc hspace
      rw [List.mem_map]
      constructor
      · rintro ⟨d, hd, heq⟩
        split at heq
        · exact absurd heq.symm hspace
        · exact heq ▸ hd
      · exact fun hmem => ⟨c, hmem, by simp [hc]⟩
    intro hmem
    exact (hkept '$' rfl (by decide)).2 (h ((hkept '\\' rfl (by decide)).1 hmem))
  unfold codeText
  simp only
  generalize body.map (fun c => if isEnding c then ' ' else c) = s at hs
  split
  · next inner hlast =>
    split
    · exact hs
    · intro hmem
      have hinner : '$' ∈ inner :=
        List.mem_of_ne_of_mem (by decide) (hs (List.mem_cons_of_mem _ (List.dropLast_subset _ hmem)))
      have hne : inner ≠ [] := List.ne_nil_of_mem hinner
      rw [List.getLast?_cons_of_ne_nil hne, List.getLast?_eq_some_getLast hne] at hlast
      rw [← List.dropLast_concat_getLast hne, Option.some.inj hlast] at hinner
      rcases List.mem_append.1 hinner with hdrop | hspace
      · exact hdrop
      · exact absurd (List.mem_singleton.1 hspace) (by decide)
  · exact hs

/-! ## Links -/

theorem suffix_skipSeparator (s : Text) : skipSeparator s <:+ s := by
  have hdrop : s.dropWhile isGap <:+ s := List.dropWhile_suffix _
  refine (List.dropWhile_suffix _).trans ?_
  cases h : afterEnding? (s.dropWhile isGap) with
  | none => exact hdrop
  | some next => exact (suffix_of_afterEnding? h).trans hdrop

/-- The texts of a target have no backslash. -/
def Target.Clean (target : Target) : Prop := '\\' ∉ target.url ∧ '\\' ∉ target.title

theorem clean_of_inlineTarget? {s rest : Text} {target : Target} (hs : Tame s)
    (h : inlineTarget? s = some (target, rest)) : target.Clean := by
  have hresume : Resumes some := fun s next heq => Option.some.inj heq ▸ List.suffix_rfl
  unfold inlineTarget? at h
  obtain ⟨inner, hinner, h⟩ := Option.bind_eq_some_iff.1 h
  obtain ⟨⟨url, behind⟩, hurl, h⟩ := Option.bind_eq_some_iff.1 h
  rw [Text.dropPrefix?_eq_some_iff.1 hinner] at hs
  have hinside := hs.of_append.of_suffix (suffix_skipSeparator inner)
  obtain ⟨hsuffix, hclean⟩ := Link.url?_spec hurl
  simp only at h
  split at h
  · next title rest htitle =>
    obtain ⟨_, -, h⟩ := Option.bind_eq_some_iff.1 h
    obtain ⟨rfl, -⟩ := Prod.mk.inj (Option.some.inj h)
    obtain ⟨-, htame⟩ := Link.title?_spec hresume htitle
    have hbehind := (hinside.of_suffix hsuffix).of_suffix (suffix_skipSeparator behind)
    exact ⟨hclean hinside, (htame hbehind).resolve⟩
  · obtain ⟨_, -, h⟩ := Option.bind_eq_some_iff.1 h
    obtain ⟨rfl, -⟩ := Prod.mk.inj (Option.some.inj h)
    exact ⟨hclean hinside, List.not_mem_nil⟩

/-- Whether a target between angle brackets could be this: it has a scheme or is a mail address. -/
def namesItself (url : Text) : Bool := url.contains ':' || url.contains '@'

theorem le_toNat_of_isAlphanum {c : Char} (h : c.isAlphanum = true) : 0x30 ≤ c.toNat := by
  unfold Char.isAlphanum Char.isAlpha Char.isUpper Char.isLower Char.isDigit at h
  simp only [Bool.or_eq_true, Bool.and_eq_true, decide_eq_true_eq, ge_iff_le, UInt32.le_iff_toNat_le] at h
  rcases h with (⟨h, -⟩ | ⟨h, -⟩) | ⟨h, -⟩
  · exact Nat.le_trans (by decide) h
  · exact Nat.le_trans (by decide) h
  · exact h

theorem schemeLink?_spec {s url rest : Text} (hs : Tame s)
    (h : Link.schemeLink? s = some (url, rest)) : Dollared url ∧ namesItself url = true := by
  let isScheme (c : Char) : Bool := c.isAlphanum || c = '.' || c = '-' || c = '+'
  let isUrl (c : Char) : Bool := 0x20 < c.toNat && c ≠ '<' && c ≠ '>'
  unfold Link.schemeLink? at h
  simp only at h
  split at h
  · next t rest' _ hscheme hrest =>
    split at h
    · obtain ⟨rfl, -⟩ := Prod.mk.inj (Option.some.inj h)
      have hurl : s = s.takeWhile isUrl ++ '>' :: rest' := by
        rw [← hrest]
        exact (List.prefix_iff_eq_append.1 (List.takeWhile_prefix _)).symm
      have hname : s = s.takeWhile isScheme ++ ':' :: t := by
        rw [← hscheme]
        exact (List.prefix_iff_eq_append.1 (List.takeWhile_prefix _)).symm
      constructor
      · rw [hurl] at hs
        exact (hs.of_cut (cut_cons (by decide) rest')).dollared
      · -- the colon stands behind the scheme, and both belong to the target
        have hscheme : ∀ c, isScheme c = true → isUrl c = true := by
          intro c hc
          have hcases : ((c.isAlphanum = true ∨ c = '.') ∨ c = '-') ∨ c = '+' := by
            simpa [isScheme] using hc
          rcases hcases with ((halphanum | rfl) | rfl) | rfl
          · have hle := le_toNat_of_isAlphanum halphanum
            have hne : c ≠ '<' ∧ c ≠ '>' := by
              refine ⟨?_, ?_⟩ <;> rintro rfl <;> cases halphanum
            have hlt : 0x20 < c.toNat := by omega
            simp [isUrl, hlt, hne]
          all_goals rfl
        have hall : ∀ c ∈ s.takeWhile isScheme, isUrl c = true := fun c hc =>
          hscheme c (List.all_eq_true.1 (List.all_takeWhile (p := isScheme)) c hc)
        have hcolon : ':' ∈ s.takeWhile isUrl := by
          rw [hname, List.takeWhile_append_of_pos hall, List.takeWhile_cons_of_pos (by decide)]
          simp
        exact Bool.or_eq_true_iff.2 (.inl (List.contains_iff_mem.2 hcolon))
    · cases h
  · cases h

theorem mailLink?_spec {s url rest : Text} (h : Link.mailLink? s = some (url, rest)) :
    Dollared url ∧ namesItself url = true := by
  unfold Link.mailLink? at h
  simp only at h
  split at h
  · split at h
    · split at h
      · obtain ⟨rfl, -⟩ := Prod.mk.inj (Option.some.inj h)
        refine ⟨.of_not_mem ?_, by simp [namesItself]⟩
        simp only [List.mem_append, List.mem_cons, not_or]
        exact ⟨Text.not_mem_takeWhile (by decide) _, by decide,
          Text.not_mem_takeWhile (by decide) _⟩
      · cases h
    · cases h
  · cases h

theorem auto?_spec {s url rest : Text} (hs : Tame s) (h : Link.auto? s = some (url, rest)) :
    Dollared url ∧ namesItself url = true := by
  rcases Option.or_eq_some_iff.1 h with h | ⟨-, h⟩
  · exact schemeLink?_spec hs h
  · exact mailLink?_spec h

/-! ## Raw HTML -/

namespace RawHtml

variable {s rest : Text} {lines : Bool}

theorem suffix_of_afterSpacing? (h : afterSpacing? lines s = some rest) : rest <:+ s := by
  unfold afterSpacing? at h
  simp only at h
  split at h
  · obtain rfl := Option.some.inj h
    exact List.dropWhile_suffix _
  · cases h

theorem suffix_of_afterValue? (h : afterValue? lines s = some rest) : rest <:+ s := by
  unfold afterValue? at h
  split at h
  · cases h
  · next c s =>
    simp only at h
    split at h
    · split at h
      · split at h
        · cases h
        · next d behind heq =>
          obtain rfl := Option.some.inj h
          have hdrop : d :: behind <:+ s := heq ▸ List.drop_suffix _ s
          exact ((List.suffix_cons d behind).trans hdrop).trans (List.suffix_cons c s)
      · cases h
    · split at h
      · obtain rfl := Option.some.inj h
        exact (List.dropWhile_suffix _).trans (List.suffix_cons c s)
      · cases h

theorem suffix_of_afterName? (h : afterName? s = some rest) : rest <:+ s := by
  unfold afterName? at h
  split at h
  · cases h
  · split at h
    · obtain rfl := Option.some.inj h
      exact (List.dropWhile_suffix _).trans (List.suffix_cons _ _)
    · cases h

theorem suffix_of_afterAttribute? (h : afterAttribute? lines s = some rest) : rest <:+ s := by
  obtain ⟨named, hnamed, h⟩ := Option.bind_eq_some_iff.1 h
  obtain ⟨spaced, hspaced, h⟩ := Option.bind_eq_some_iff.1 h
  have hbehind := (suffix_of_afterSpacing? hspaced).trans (suffix_of_afterName? hnamed)
  split at h
  · next inner =>
    obtain ⟨value, hvalue, h⟩ := Option.bind_eq_some_iff.1 h
    exact (((suffix_of_afterValue? h).trans (suffix_of_afterSpacing? hvalue)).trans
      (List.suffix_cons _ _)).trans hbehind
  · obtain rfl := Option.some.inj h
    exact suffix_of_afterName? hnamed

theorem suffix_of_afterAttributes? {fuel : Nat} (h : afterAttributes? lines fuel s = some rest) :
    rest <:+ s := by
  induction fuel generalizing s with
  | zero => cases h
  | succ fuel ih =>
    obtain ⟨spaced, hspaced, h⟩ := Option.bind_eq_some_iff.1 h
    have hbehind := suffix_of_afterSpacing? hspaced
    split at h
    · cases h
    · split at h
      · obtain rfl := Option.some.inj h
        exact hbehind
      · split at h
        · cases h
        · obtain ⟨next, hnext, h⟩ := Option.bind_eq_some_iff.1 h
          exact ((ih h).trans (suffix_of_afterAttribute? hnext)).trans hbehind

theorem suffix_of_afterTagName? (h : afterTagName? s = some rest) : rest <:+ s := by
  unfold afterTagName? at h
  split at h
  · cases h
  · split at h
    · obtain rfl := Option.some.inj h
      exact (List.dropWhile_suffix _).trans (List.suffix_cons _ _)
    · cases h

theorem suffix_of_afterTag? (h : afterTag? lines s = some rest) : '>' :: rest <:+ s := by
  unfold afterTag? at h
  split at h
  · next s =>
    obtain ⟨named, hnamed, h⟩ := Option.bind_eq_some_iff.1 h
    split at h
    · next behind heq =>
      obtain rfl := Option.some.inj h
      have hdrop : '>' :: behind <:+ named := heq ▸ List.dropWhile_suffix _
      exact ((hdrop.trans (suffix_of_afterTagName? hnamed)).trans (List.suffix_cons _ _)).trans
        (List.suffix_cons _ _)
    · cases h
  · next s _ =>
    obtain ⟨named, hnamed, h⟩ := Option.bind_eq_some_iff.1 h
    obtain ⟨attributes, hattributes, h⟩ := Option.bind_eq_some_iff.1 h
    have hbehind := ((suffix_of_afterAttributes? hattributes).trans
      (suffix_of_afterTagName? hnamed)).trans (List.suffix_cons '<' s)
    split at h
    · obtain rfl := Option.some.inj h
      exact hbehind
    · obtain rfl := Option.some.inj h
      exact (List.suffix_cons '/' _).trans hbehind
    · cases h
  · cases h

theorem suffix_of_afterFirst? {p : Text} (h : afterFirst? (p ++ ['>']) s = some rest) :
    '>' :: rest <:+ s := by
  induction s with
  | nil => cases h
  | cons c s ih =>
    rw [afterFirst?] at h
    split at h
    · next heq =>
      obtain rfl := Option.some.inj h
      rw [Text.dropPrefix?_eq_some_iff.1 heq, List.append_assoc]
      exact List.suffix_append p _
    · exact (ih h).trans (List.suffix_cons c s)

theorem suffix_of_afterMarkup? (h : afterMarkup? s = some rest) : '>' :: rest <:+ s := by
  unfold afterMarkup? at h
  split at h
  · next heq =>
    obtain rfl := Option.some.inj h
    exact Text.dropPrefix?_eq_some_iff.1 heq ▸ List.suffix_append _ _
  · next heq =>
    obtain rfl := Option.some.inj h
    exact Text.dropPrefix?_eq_some_iff.1 heq ▸ (List.suffix_cons '-' _).trans (List.suffix_append _ _)
  · next inner _ _ heq =>
    have hend : '>' :: rest <:+ inner := suffix_of_afterFirst? (p := "--") h
    exact Text.dropPrefix?_eq_some_iff.1 heq ▸ hend.trans (List.suffix_append _ _)
  · split at h
    · next inner heq =>
      have hend : '>' :: rest <:+ inner := suffix_of_afterFirst? (p := "]]") h
      exact Text.dropPrefix?_eq_some_iff.1 heq ▸ hend.trans (List.suffix_append _ _)
    · split at h
      · next inner _ _ =>
        have hend : '>' :: rest <:+ inner := suffix_of_afterFirst? (p := "?") h
        exact (hend.trans (List.suffix_cons _ _)).trans (List.suffix_cons _ _)
      · next c inner _ _ =>
        split at h
        · have hend : '>' :: rest <:+ inner := suffix_of_afterFirst? (p := []) h
          exact ((hend.trans (List.suffix_cons c _)).trans (List.suffix_cons '!' _)).trans
            (List.suffix_cons '<' _)
        · cases h
      · cases h

/-- Raw HTML has a dollar sign where it has a backslash. -/
theorem dollared_of_suffix (hs : Tame s) (h : '>' :: rest <:+ s) :
    Dollared (s.take (s.length - rest.length)) := by
  obtain ⟨before, rfl⟩ := h
  have htake : (before ++ '>' :: rest).take ((before ++ '>' :: rest).length - rest.length) =
      before ++ ['>'] := by
    have hlength : (before ++ '>' :: rest).length - rest.length = (before ++ ['>']).length := by
      simp
      omega
    rw [hlength, List.append_cons before '>' rest]
    exact List.take_left
  rw [htake]
  rw [List.append_cons before '>' rest] at hs
  exact hs.dollared_of_append (by simp)

end RawHtml

section reveal

variable {hidden : List Text} {s : Text}

theorem not_mem_headD {c : Char} (h : ∀ t ∈ hidden, c ∉ t) : c ∉ hidden.headD [] := by
  cases hidden with
  | nil => exact List.not_mem_nil
  | cons t hidden => exact h t List.mem_cons_self

theorem mem_of_mem_reveal {c : Char} (hhidden : ∀ t ∈ hidden, c ∉ t)
    (h : c ∈ InlineReader.reveal hidden s) : c ∈ s := by
  fun_induction InlineReader.reveal hidden s with
  | case1 => exact h
  | case2 hidden s ih =>
    have htail : ∀ t ∈ hidden.tail, c ∉ t := fun t ht => hhidden t (List.mem_of_mem_tail ht)
    simp only [List.mem_cons, List.mem_append] at h ⊢
    have hhead := not_mem_headD hhidden
    grind
  | case3 hidden d s _ hd ih =>
    have htail : ∀ t ∈ hidden.tail, c ∉ t := fun t ht => hhidden t (List.mem_of_mem_tail ht)
    simp only [List.mem_cons, List.mem_append] at h ⊢
    have hhead := not_mem_headD hhidden
    grind
  | case4 hidden d s _ hd ih =>
    rw [List.mem_cons] at h ⊢
    exact h.imp_right (ih hhidden)

theorem mem_reveal_of_mem {c : Char} (h : c ∈ s) : c ∈ InlineReader.reveal hidden s := by
  fun_induction InlineReader.reveal hidden s with
  | case1 => exact h
  | case2 hidden s ih =>
    simp only [List.mem_cons, List.mem_append] at h ⊢
    exact h.imp_right (Or.imp_right fun h => .inr (ih h))
  | case3 hidden d s _ hd ih =>
    simp only [List.mem_cons, List.mem_append] at h ⊢
    exact h.imp_right fun h => .inr (ih h)
  | case4 hidden d s _ hd ih =>
    rw [List.mem_cons] at h ⊢
    exact h.imp_right ih

theorem dollared_reveal (hhidden : ∀ t ∈ hidden, '\\' ∉ t) (hs : Dollared s) :
    Dollared (InlineReader.reveal hidden s) :=
  fun hmem => mem_reveal_of_mem (hs (mem_of_mem_reveal hhidden hmem))

end reveal

end Galley.Markdown
