import Galley.Markdown.Paragraph
import Galley.Proofs.Markdown.Tame

/-!
# Links in tame texts

The targets and titles of links in a tame text have no backslash, and what follows them is the end
of the text. A title can go on in the next line, so it is put together from parts of the text.
-/

namespace Galley.Markdown

theorem suffix_of_afterEnding? {s rest : Text} (h : afterEnding? s = some rest) : rest <:+ s := by
  unfold afterEnding? at h
  split at h
  · obtain rfl := Option.some.inj h
    exact List.suffix_rfl
  · obtain rfl := Option.some.inj h
    exact List.suffix_cons _ _
  · obtain rfl := Option.some.inj h
    exact (List.suffix_cons _ _).trans (List.suffix_cons _ _)
  · obtain rfl := Option.some.inj h
    exact List.suffix_cons _ _
  · cases h

/-- Where a text goes on is a later place of it. -/
def Resumes (resume? : Text → Option Text) : Prop := ∀ s next, resume? s = some next → next <:+ s

theorem exists_of_map_eq_some {o : Option (Text × Text)} (f : Text → Text) {out rest : Text}
    (h : (o.map fun (t, rest) => (f t, rest)) = some (out, rest)) :
    ∃ t, o = some (t, rest) ∧ out = f t := by
  obtain ⟨⟨t, behind⟩, ho, heq⟩ := Option.map_eq_some_iff.1 h
  obtain ⟨rfl, rfl⟩ := Prod.mk.inj heq
  exact ⟨t, ho, rfl⟩

namespace Link

variable {s rest url : Text}

/-! ## Targets -/

theorem eq_of_pointed? (h : pointed? s = some (url, rest)) : s = url ++ '>' :: rest := by
  fun_induction pointed? s generalizing url with
  | case1 => cases h
  | case2 s =>
    obtain ⟨rfl, rfl⟩ := Prod.mk.inj (Option.some.inj h)
    rfl
  | case5 => cases h
  | case3 c s _ ih =>
    obtain ⟨t, hread, rfl⟩ := exists_of_map_eq_some ('\\' :: c :: ·) h
    rw [ih hread]
    rfl
  | case4 c s _ ih =>
    obtain ⟨t, hread, rfl⟩ := exists_of_map_eq_some ('\\' :: ·) h
    rw [ih hread]
    rfl
  | case6 c s _ _ _ ih =>
    obtain ⟨t, hread, rfl⟩ := exists_of_map_eq_some (c :: ·) h
    rw [ih hread]
    rfl

theorem eq_of_bare? {depth : Nat} (h : bare? depth s = some (url, rest)) :
    s = url ++ rest ∧ Cut rest := by
  have hcontrol : ∀ c : Char, c.toNat ≤ 0x20 → c ∉ inside := by
    have hinside : inside.any (·.toNat ≤ 0x20) = false := by decide
    exact fun c hc hmem => List.any_eq_false.1 hinside c hmem (decide_eq_true hc)
  fun_induction bare? depth s generalizing url with
  | case1 =>
    obtain ⟨rfl, rfl⟩ := Prod.mk.inj (Option.some.inj h)
    exact ⟨rfl, cut_nil⟩
  | case5 c s _ hc =>
    obtain ⟨rfl, rfl⟩ := Prod.mk.inj (Option.some.inj h)
    exact ⟨rfl, cut_cons (hcontrol c hc) s⟩
  | case9 s =>
    obtain ⟨rfl, rfl⟩ := Prod.mk.inj (Option.some.inj h)
    exact ⟨rfl, cut_cons (by decide) s⟩
  | case2 | case6 | case7 => cases h
  | case3 depth c s _ ih =>
    obtain ⟨t, hread, rfl⟩ := exists_of_map_eq_some ('\\' :: c :: ·) h
    obtain ⟨rfl, hcut⟩ := ih hread
    exact ⟨rfl, hcut⟩
  | case4 depth c s _ ih =>
    obtain ⟨t, hread, rfl⟩ := exists_of_map_eq_some ('\\' :: ·) h
    obtain ⟨heq, hcut⟩ := ih hread
    exact ⟨congrArg ('\\' :: ·) heq, hcut⟩
  | case8 depth s _ _ _ ih =>
    obtain ⟨t, hread, rfl⟩ := exists_of_map_eq_some ('(' :: ·) h
    obtain ⟨rfl, hcut⟩ := ih hread
    exact ⟨rfl, hcut⟩
  | case10 s depth _ _ _ ih =>
    obtain ⟨t, hread, rfl⟩ := exists_of_map_eq_some (')' :: ·) h
    obtain ⟨rfl, hcut⟩ := ih hread
    exact ⟨rfl, hcut⟩
  | case11 depth c s _ _ _ _ ih =>
    obtain ⟨t, hread, rfl⟩ := exists_of_map_eq_some (c :: ·) h
    obtain ⟨rfl, hcut⟩ := ih hread
    exact ⟨rfl, hcut⟩

theorem url?_spec (h : url? s = some (url, rest)) :
    rest <:+ s ∧ (Tame s → '\\' ∉ url) := by
  obtain ⟨source, hread, rfl⟩ := exists_of_map_eq_some resolve h
  split at hread
  · next s =>
    obtain rfl := eq_of_pointed? hread
    refine ⟨?_, fun hs => (hs.tail.of_cut (cut_cons (by decide) rest)).resolve⟩
    exact ((List.suffix_cons _ _).trans (List.suffix_append _ _)).trans (List.suffix_cons _ _)
  · obtain ⟨rfl, hcut⟩ := eq_of_bare? hread
    exact ⟨List.suffix_append _ _, fun hs => (hs.of_cut hcut).resolve⟩

/-! ## Titles -/

section title

variable {resume? : Text → Option Text} {closing : Char} {title : Text}

theorem plain_of_mem_inside {c : Char} (hc : c ∈ inside) :
    c ≠ '\\' ∧ c ≠ '(' ∧ isEnding c = false := by
  have hall : inside.all (fun c => c != '\\' && c != '(' && !isEnding c) = true := by decide
  simpa [and_assoc] using List.all_eq_true.1 hall c hc

theorem exists_titleBody?_append {w : Text} (hclosing : closing ∉ w)
    (hw : ∀ c ∈ w, c ≠ '\\' ∧ c ≠ '(' ∧ isEnding c = false) {fuel : Nat}
    (h : titleBody? resume? closing fuel (w ++ s) = some (title, rest)) : ∃ t, title = w ++ t := by
  induction w generalizing fuel title with
  | nil => exact ⟨title, rfl⟩
  | cons c w ih =>
    rw [List.forall_mem_cons] at hw
    rw [List.mem_cons, not_or] at hclosing
    obtain ⟨⟨hbackslash, hopening, hending⟩, hw⟩ := hw
    cases fuel with
    | zero => cases h
    | succ fuel =>
      have hreturn : c ≠ '\r' := by
        rintro rfl
        cases hending
      have hplain : titleBody? resume? closing (fuel + 1) (c :: (w ++ s)) =
          (titleBody? resume? closing fuel (w ++ s)).map fun (title, rest) =>
            ([c] ++ title, rest) := by
        rw [titleBody?.eq_def]
        simp [hbackslash, hopening, hending, hreturn, Ne.symm hclosing.1]
      rw [List.cons_append, hplain] at h
      obtain ⟨t, hread, rfl⟩ := exists_of_map_eq_some ([c] ++ ·) h
      obtain ⟨t, rfl⟩ := ih hclosing.2 hw hread
      exact ⟨t, rfl⟩

theorem titleBody?_spec (hresume : Resumes resume?) (hclosing : closing ∉ inside) {fuel : Nat}
    (h : titleBody? resume? closing fuel s = some (title, rest)) :
    rest <:+ s ∧ (Tame s → Tame title) := by
  induction fuel generalizing s title with
  | zero => cases h
  | succ fuel ih =>
    rw [titleBody?.eq_def] at h
    simp only at h
    split at h
    · cases h
    · next c s =>
      split at h
      · obtain ⟨t, hread, rfl⟩ := exists_of_map_eq_some (['\\', c] ++ ·) h
        obtain ⟨hsuffix, htame⟩ := ih hread
        refine ⟨(hsuffix.trans (List.suffix_cons _ _)).trans (List.suffix_cons _ _), fun hs => ?_⟩
        obtain rfl : c = '$' := Option.some.inj (hs.1 rfl)
        have hescape : Tame ['\\', '$'] := by simp [Tame]
        exact hescape.append (htame hs.tail.tail)
      · next hpunctuation =>
        obtain ⟨t, hread, rfl⟩ := exists_of_map_eq_some (['\\'] ++ ·) h
        obtain ⟨hsuffix, htame⟩ := ih hread
        refine ⟨hsuffix.trans (List.suffix_cons _ _), fun hs => ?_⟩
        obtain rfl : c = '$' := Option.some.inj (hs.1 rfl)
        exact absurd (by decide) hpunctuation
    · next c s hescape =>
      have hplain (hs : Tame (c :: s)) : c ≠ '\\' := by
        rintro rfl
        obtain ⟨d, s, rfl⟩ : ∃ d r, s = d :: r := by
          cases s with
          | nil => exact nomatch hs.1 rfl
          | cons d s => exact ⟨d, s, rfl⟩
        exact hescape d s rfl rfl
      split at h
      · obtain ⟨rfl, rfl⟩ := Prod.mk.inj (Option.some.inj h)
        exact ⟨List.suffix_cons _ _, fun _ => .nil⟩
      split at h
      · cases h
      split at h
      · obtain ⟨t, hread, rfl⟩ := exists_of_map_eq_some (['\r'] ++ ·) h
        obtain ⟨hsuffix, htame⟩ := ih hread
        refine ⟨hsuffix.trans (List.suffix_cons _ _), fun hs => ?_⟩
        exact .append (.of_not_mem (by decide) (by decide)) (htame hs.tail)
      split at h
      · obtain ⟨next, hnext, h⟩ := Option.bind_eq_some_iff.1 h
        obtain ⟨t, hread, rfl⟩ := exists_of_map_eq_some (['\n'] ++ ·) h
        obtain ⟨hsuffix, htame⟩ := ih hread
        have hnext := hresume _ _ hnext
        refine ⟨((hsuffix.trans (List.dropWhile_suffix _)).trans hnext).trans
          (List.suffix_cons _ _), fun hs => ?_⟩
        have hnext : Tame next := hs.tail.of_suffix hnext
        exact .append (.of_not_mem (by decide) (by decide)) (htame (hnext.dropWhile _))
      · obtain ⟨t, hread, rfl⟩ := exists_of_map_eq_some ([c] ++ ·) h
        obtain ⟨hsuffix, htame⟩ := ih hread
        refine ⟨hsuffix.trans (List.suffix_cons _ _), fun hs => ?_⟩
        refine ⟨fun hc => absurd hc (hplain hs), fun hc => ?_, htame hs.tail⟩
        -- an entity that begins here is read on as it stands
        obtain ⟨tail, htail, r, rfl⟩ := hs.2.1 hc
        obtain ⟨t, rfl⟩ := exists_titleBody?_append
          (fun hmem => hclosing (mem_inside_of_mem_entityTails htail hmem))
          (fun d hd => plain_of_mem_inside (mem_inside_of_mem_entityTails htail hd)) hread
        exact ⟨tail, htail, List.prefix_append tail t⟩

theorem title?_spec (hresume : Resumes resume?) (h : title? resume? s = some (title, rest)) :
    rest <:+ s ∧ (Tame s → Tame title) := by
  cases s with
  | nil => cases h
  | cons c s =>
    obtain ⟨closing, hclosing, h⟩ := Option.bind_eq_some_iff.1 h
    have hinside : closing ∉ inside := by
      unfold titleClosing? at hclosing
      split at hclosing
      · next hc =>
        obtain rfl := Option.some.inj hclosing
        have hquote : c = '"' ∨ c = '\'' := by simpa using hc
        rcases hquote with rfl | rfl <;> decide
      · split at hclosing
        · obtain rfl := Option.some.inj hclosing
          decide
        · cases hclosing
    obtain ⟨hsuffix, htame⟩ := titleBody?_spec hresume hinside h
    exact ⟨hsuffix.trans (List.suffix_cons _ _), fun hs => htame hs.tail⟩

end title

/-! ## Labels -/

section label

variable {resume? : Text → Option Text} {label : Text}

theorem suffix_of_afterLabelGap? (hresume : Resumes resume?)
    (h : afterLabelGap? resume? s = some rest) : rest <:+ s := by
  have hdrop : s.dropWhile isGap <:+ s := List.dropWhile_suffix _
  unfold afterLabelGap? at h
  simp only at h
  split at h
  · obtain rfl := Option.some.inj h
    exact List.nil_suffix
  · split at h
    · obtain rfl := Option.some.inj h
      exact hdrop
    · next hending =>
      obtain ⟨next, hnext, h⟩ := Option.bind_eq_some_iff.1 h
      split at h
      · cases h
      · obtain rfl := Option.some.inj h
        exact (((List.dropWhile_suffix _).trans (hresume _ _ hnext)).trans
          (suffix_of_afterEnding? hending)).trans hdrop

theorem suffix_of_labelBody? (hresume : Resumes resume?) {fuel : Nat}
    (h : labelBody? resume? fuel s = some (label, rest)) : rest <:+ s := by
  induction fuel generalizing s label with
  | zero => cases h
  | succ fuel ih =>
    rw [labelBody?.eq_def] at h
    simp only at h
    split at h
    · cases h
    · cases h
    · obtain ⟨-, rfl⟩ := Prod.mk.inj (Option.some.inj h)
      exact List.suffix_cons _ _
    · next c s =>
      obtain ⟨t, hread, -⟩ := exists_of_map_eq_some (['\\', c] ++ ·) h
      exact ((ih hread).trans (List.suffix_cons _ _)).trans (List.suffix_cons _ _)
    · next c s _ _ _ =>
      split at h
      · obtain ⟨next, hnext, h⟩ := Option.bind_eq_some_iff.1 h
        obtain ⟨t, hread, -⟩ := exists_of_map_eq_some ([' '] ++ ·) h
        exact (ih hread).trans (suffix_of_afterLabelGap? hresume hnext)
      · obtain ⟨t, hread, -⟩ := exists_of_map_eq_some ([c] ++ ·) h
        exact (ih hread).trans (List.suffix_cons _ _)

theorem suffix_of_label? (hresume : Resumes resume?)
    (h : label? resume? s = some (label, rest)) : rest <:+ s := by
  obtain ⟨⟨body, behind⟩, hbody, h⟩ := Option.bind_eq_some_iff.1 h
  simp only at h
  split at h
  · cases h
  · obtain ⟨-, rfl⟩ := Prod.mk.inj (Option.some.inj h)
    exact suffix_of_labelBody? hresume hbody

end label

end Link

end Galley.Markdown
