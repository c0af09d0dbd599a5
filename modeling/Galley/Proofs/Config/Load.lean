import Galley.Config.Load

/-!
# Loaded configurations

A configuration that is loaded is valid, and it is known where each switch comes from: the command
line wins over the file, and the file over the default (`precedence_of_load`). Nothing else depends
on the command line. The file is the one that is asked for, or else the one in the nearest folder.
-/

namespace Galley.Config

open Toml (Entries Value)

/-! ## The file -/

def pathIn (folder : List Text) : Text := PathName.absolute (folder ++ [fileName])

/-- Whether the configuration comes from a file: the one that is asked for, which exists, or else
the existing one in the working folder or the nearest folder around it. -/
def IsSource (here : SystemView) : (asked? source? : Option Text) → Prop
  | some path, source? => here.isPresent path = true ∧ source? = some path
  | none, some path => ∃ folder, folder <+: here.folder ∧ path = pathIn folder ∧
      here.isPresent path = true ∧ ∀ closer, closer <+: here.folder →
        folder.length < closer.length → here.isPresent (pathIn closer) = false
  | none, none => ∀ folder, folder <+: here.folder → here.isPresent (pathIn folder) = false

theorem find?_map_reverse_range {α : Type} (f : Nat → α) (p : α → Bool) (n : Nat) :
    match ((List.range n).reverse.map f).find? p with
    | some a => ∃ k, k < n ∧ a = f k ∧ p a = true ∧ ∀ j, k < j → j < n → p (f j) = false
    | none => ∀ k, k < n → p (f k) = false := by
  induction n with
  | zero => simp
  | succ n ih =>
    rw [List.range_succ, List.reverse_append, List.reverse_singleton, List.singleton_append,
      List.map_cons, List.find?_cons]
    cases hlast : p (f n) with
    | true => exact ⟨n, Nat.lt_succ_self n, rfl, hlast, fun j hj hj' => by omega⟩
    | false =>
      have hbelow : ∀ j, j < n + 1 → j < n ∨ j = n := fun j hj => by omega
      dsimp only
      split at ih
      · next a ha =>
        rw [ha]
        obtain ⟨k, hk, rfl, hpk, hothers⟩ := ih
        refine ⟨k, by omega, rfl, hpk, fun j hkj hj => ?_⟩
        rcases hbelow j hj with hlt | rfl
        · exact hothers j hkj hlt
        · exact hlast
      · next hnone =>
        rw [hnone]
        intro k hk
        rcases hbelow k hk with hlt | rfl
        · exact ih k hlt
        · exact hlast

theorem isPrefix_iff_exists_take {α : Type} {l m : List α} :
    l <+: m ↔ ∃ k, k < m.length + 1 ∧ l = m.take k := by
  constructor
  · intro h
    exact ⟨l.length, by have := h.length_le; omega, List.prefix_iff_eq_take.1 h⟩
  · rintro ⟨k, -, rfl⟩
    exact List.take_prefix k m

theorem isSource_of_source? {here : SystemView} {asked? source? : Option Text}
    (h : Config.source? here asked? = .ok source?) : IsSource here asked? source? := by
  cases asked? with
  | some path =>
    rw [Config.source?] at h
    split at h
    · next hpresent => exact ⟨hpresent, (Except.ok.inj h).symm⟩
    · cases h
  | none =>
    have hcandidates : candidates here.folder =
        (List.range (here.folder.length + 1)).reverse.map fun k => pathIn (here.folder.take k) := by
      rw [candidates, PathName.ancestors, List.map_map]
      rfl
    obtain rfl : (candidates here.folder).find? here.isPresent = source? := Except.ok.inj h
    have hfirst := find?_map_reverse_range (fun k => pathIn (here.folder.take k)) here.isPresent
      (here.folder.length + 1)
    rw [hcandidates]
    split at hfirst
    · next path hpath =>
      rw [hpath]
      obtain ⟨k, hk, rfl, hpresent, hcloser⟩ := hfirst
      refine ⟨here.folder.take k, List.take_prefix _ _, rfl, hpresent, fun closer hprefix hlt => ?_⟩
      obtain ⟨j, hj, rfl⟩ := isPrefix_iff_exists_take.1 hprefix
      rw [List.length_take, List.length_take] at hlt
      exact hcloser j (by omega) hj
    · next hnone =>
      rw [hnone]
      intro folder hprefix
      obtain ⟨k, hk, rfl⟩ := isPrefix_iff_exists_take.1 hprefix
      exact hfirst k hk

/-- What the file says; without a file, nothing. -/
def Says (here : SystemView) : Option Text → Entries → Prop
  | none, entries => entries = []
  | some path, entries => ∃ text, here.read path = .ok text ∧ Toml.parse? text = some entries

/-! ## The switches -/

/-- A setting that the command line can override. -/
inductive Switch
  | math | tableOfContents | darkMode | lineNumbers | newlineIsParagraph | wordWrap
deriving DecidableEq, Repr

namespace Switch

def of (config : Config) : Switch → Bool
  | math => config.math
  | tableOfContents => config.toc.enabled
  | darkMode => config.darkMode
  | lineNumbers => config.lineNumbers
  | newlineIsParagraph => config.newlineIsParagraph
  | wordWrap => config.wordWrap

def given? (overrides : Overrides) : Switch → Option Bool
  | math => overrides.math
  | tableOfContents => overrides.tocEnabled
  | darkMode => overrides.darkMode
  | lineNumbers => overrides.lineNumbers
  | newlineIsParagraph => overrides.newlineIsParagraph
  | wordWrap => overrides.wordWrap

def group : Switch → Text
  | tableOfContents => "toc"
  | _ => "render"

def keys : Switch → List Text
  | tableOfContents => ["enabled", "min_level", "max_level", "title"]
  | _ => ["math", "dark_mode", "line_numbers", "newline_is_paragraph", "word_wrap"]

def key : Switch → Text
  | math => "math"
  | tableOfContents => "enabled"
  | darkMode => "dark_mode"
  | lineNumbers => "line_numbers"
  | newlineIsParagraph => "newline_is_paragraph"
  | wordWrap => "word_wrap"

end Switch

/-- The value under a key of a group. A group without keys has its values in the order of the keys. -/
def written? (entries : Entries) (group : Text) (keys : List Text) (key : Text) : Option Value :=
  match entries.get? group with
  | some (.table _ inner) => Entries.get? inner key
  | some (.array items) => items[keys.idxOf key]?
  | some (.tables items) => items[keys.idxOf key]?.map (.table .header)
  | _ => none

/-- The value that a file gives a switch. -/
def Switch.written? (entries : Entries) (switch : Switch) : Option Value :=
  Config.written? entries switch.group switch.keys switch.key

theorem lookup_zip {keys : List Text} {key : Text} (hkey : key ∈ keys) (items : List Value) :
    (keys.zip items).lookup key = items[keys.idxOf key]? := by
  induction keys generalizing items with
  | nil => cases hkey
  | cons first keys ih =>
    cases items with
    | nil => simp
    | cons item items =>
      by_cases hfirst : key = first
      · simp [hfirst]
      · have hkey : key ∈ keys := (List.mem_cons.1 hkey).resolve_left hfirst
        have hne : (key == first) = false := by simpa using hfirst
        rw [List.zip_cons_cons, List.lookup_cons, hne, ih hkey]
        simp [List.idxOf_cons, beq_false_of_ne (Ne.symm hfirst)]

section

variable {entries inner : Entries} {group key : Text} {keys : List Text}

theorem get?_eq_written? (h : group? keys (entries.get? group) = some inner) (hkey : key ∈ keys) :
    inner.get? key = written? entries group keys key := by
  unfold written?
  cases hgroup : entries.get? group with
  | none =>
    rw [hgroup] at h
    obtain rfl := Option.some.inj h
    rfl
  | some value =>
    rw [hgroup] at h
    cases value with
    | table origin found =>
      obtain rfl := Option.some.inj h
      rfl
    | array items =>
      obtain rfl := Option.some.inj h
      exact lookup_zip hkey items
    | tables items =>
      obtain rfl := Option.some.inj h
      rw [Entries.get?, lookup_zip hkey, List.getElem?_map]
    | _ => cases h

theorem exists_written?_of_setting? {b default : Bool}
    (hgroup : group? keys (entries.get? group) = some inner) (hkey : key ∈ keys)
    (h : setting? boolean? default key inner = some b) :
    ∃ inFile? : Option Bool, written? entries group keys key = inFile?.map .boolean ∧
      b = inFile?.getD default := by
  rw [setting?, get?_eq_written? hgroup hkey] at h
  split at h
  · next hnone => exact ⟨none, hnone, (Option.some.inj h).symm⟩
  · next value hvalue =>
    cases value with
    | boolean written =>
      obtain rfl := Option.some.inj h
      exact ⟨some written, hvalue, rfl⟩
    | _ => cases h

end

theorem exists_written?_of_ofEntries? {entries : Entries} {config : Config}
    (h : ofEntries? entries = some config) (switch : Switch) :
    ∃ inFile? : Option Bool, switch.written? entries = inFile?.map .boolean ∧
      switch.of config = inFile?.getD (switch.of {}) := by
  unfold ofEntries? at h
  -- the groups
  obtain ⟨render, hrender, h⟩ := Option.bind_eq_some_iff.1 h
  obtain ⟨toc, htoc, h⟩ := Option.bind_eq_some_iff.1 h
  obtain ⟨_, _, h⟩ := Option.bind_eq_some_iff.1 h
  obtain ⟨_, _, h⟩ := Option.bind_eq_some_iff.1 h
  obtain ⟨_, _, h⟩ := Option.bind_eq_some_iff.1 h
  -- the settings of `[render]`
  obtain ⟨math, hmath, h⟩ := Option.bind_eq_some_iff.1 h
  obtain ⟨dark, hdark, h⟩ := Option.bind_eq_some_iff.1 h
  obtain ⟨numbers, hnumbers, h⟩ := Option.bind_eq_some_iff.1 h
  obtain ⟨newline, hnewline, h⟩ := Option.bind_eq_some_iff.1 h
  obtain ⟨wrap, hwrap, h⟩ := Option.bind_eq_some_iff.1 h
  -- those of `[toc]`, and then the others
  obtain ⟨enabled, henabled, h⟩ := Option.bind_eq_some_iff.1 h
  obtain ⟨_, _, h⟩ := Option.bind_eq_some_iff.1 h
  obtain ⟨_, _, h⟩ := Option.bind_eq_some_iff.1 h
  obtain ⟨_, _, h⟩ := Option.bind_eq_some_iff.1 h
  obtain ⟨_, _, h⟩ := Option.bind_eq_some_iff.1 h
  obtain ⟨_, _, h⟩ := Option.bind_eq_some_iff.1 h
  obtain ⟨_, _, h⟩ := Option.bind_eq_some_iff.1 h
  obtain rfl := Option.some.inj h
  cases switch with
  | math => exact exists_written?_of_setting? hrender (by decide) hmath
  | tableOfContents => exact exists_written?_of_setting? htoc (by decide) henabled
  | darkMode => exact exists_written?_of_setting? hrender (by decide) hdark
  | lineNumbers => exact exists_written?_of_setting? hrender (by decide) hnumbers
  | newlineIsParagraph => exact exists_written?_of_setting? hrender (by decide) hnewline
  | wordWrap => exact exists_written?_of_setting? hrender (by decide) hwrap

/-- The configuration with the switches of another one. -/
def withSwitchesOf (config other : Config) : Config :=
  { config with
    math := other.math
    toc := { config.toc with enabled := other.toc.enabled }
    darkMode := other.darkMode
    lineNumbers := other.lineNumbers
    newlineIsParagraph := other.newlineIsParagraph
    wordWrap := other.wordWrap }

/-! ## Loading -/

theorem bind_eq_ok_iff {ε α β : Type} {x : Except ε α} {f : α → Except ε β} {b : β} :
    x >>= f = .ok b ↔ ∃ a, x = .ok a ∧ f a = .ok b := by
  cases x with
  | error e => exact ⟨fun h => (by cases h), fun ⟨_, h, _⟩ => (by cases h)⟩
  | ok a => exact ⟨fun h => ⟨a, rfl, h⟩, fun ⟨_, h, hb⟩ => Except.ok.inj h ▸ hb⟩

theorem mapError_eq_ok_iff {ε ε' α : Type} {x : Except ε α} {f : ε → ε'} {a : α} :
    x.mapError f = .ok a ↔ x = .ok a := by
  cases x with
  | error e => exact ⟨fun h => (by cases h), fun h => (by cases h)⟩
  | ok b => exact ⟨fun h => congrArg _ (Except.ok.inj h), fun h => congrArg _ (Except.ok.inj h)⟩

theorem eq_ok_of_toOption {ε α : Type} {x : Except ε α} {a : α} (h : x.toOption = some a) :
    x = .ok a := by
  cases x with
  | error e => cases h
  | ok b => exact congrArg _ (Option.some.inj h)

theorem isValid_of_validated {config config' : Config} (h : validated config = .ok config') :
    config = config' ∧ config'.isValid = true := by
  unfold validated at h
  split at h
  · next hfaults =>
    obtain rfl := Except.ok.inj h
    exact ⟨rfl, by rw [isValid, hfaults]; rfl⟩
  · cases h

theorem of_ofFile {here : SystemView} {path : Text} {config : Config}
    (h : ofFile here path = .ok config) :
    config.isValid = true ∧ config.path? = some path ∧
      ∃ entries, Says here (some path) entries ∧ ∀ switch : Switch, ∃ inFile? : Option Bool,
        switch.written? entries = inFile?.map .boolean ∧
          switch.of config = inFile?.getD (switch.of {}) := by
  obtain ⟨text, hread, h⟩ := bind_eq_ok_iff.1 h
  split at h
  · cases h
  · next inFile hconfig =>
    obtain ⟨entries, hentries, hsettings⟩ := Option.bind_eq_some_iff.1 hconfig
    obtain ⟨url, -, h⟩ := bind_eq_ok_iff.1 h
    obtain ⟨title, -, h⟩ := bind_eq_ok_iff.1 h
    obtain ⟨rfl, hvalid⟩ := isValid_of_validated h
    refine ⟨hvalid, rfl, entries, ⟨text, mapError_eq_ok_iff.1 hread, hentries⟩, fun switch => ?_⟩
    obtain ⟨inFile?, hwritten, hof⟩ := exists_written?_of_ofEntries? hsettings switch
    exact ⟨inFile?, hwritten, by cases switch <;> exact hof⟩

/-- What is loaded before the switches of the command line. -/
def ofSource (here : SystemView) : Option Text → Except LoadError Config
  | some path => ofFile here path
  | none => .ok {}

theorem load_eq_ok_iff {here : SystemView} {asked? : Option Text} {overrides : Overrides}
    {config : Config} :
    load here asked? overrides = .ok config ↔
      ∃ source? base, Config.source? here asked? = .ok source? ∧ ofSource here source? = .ok base ∧
        base.override overrides = config := by
  have hload : load here asked? overrides = Config.source? here asked? >>= fun source? =>
      ofSource here source? >>= fun base => .ok (base.override overrides) := by
    unfold load
    congr
    funext source?
    cases source? <;> rfl
  simp only [hload, bind_eq_ok_iff, Except.ok.injEq]
  exact ⟨fun ⟨source?, hsource, base, hbase, h⟩ => ⟨source?, base, hsource, hbase, h⟩,
    fun ⟨source?, base, hsource, hbase, h⟩ => ⟨source?, hsource, base, hbase, h⟩⟩

theorem of_ofSource {here : SystemView} {source? : Option Text} {config : Config}
    (h : ofSource here source? = .ok config) :
    config.isValid = true ∧ config.path? = source? ∧
      ∃ entries, Says here source? entries ∧ ∀ switch : Switch, ∃ inFile? : Option Bool,
        switch.written? entries = inFile?.map .boolean ∧
          switch.of config = inFile?.getD (switch.of {}) := by
  cases source? with
  | some path => exact of_ofFile h
  | none =>
    obtain rfl := Except.ok.inj h
    exact ⟨by decide, rfl, [], rfl, fun switch => ⟨none, by cases switch <;> rfl, rfl⟩⟩

theorem of_override (config : Config) (overrides : Overrides) (switch : Switch) :
    switch.of (config.override overrides) = (switch.given? overrides).getD (switch.of config) := by
  cases switch <;> rfl

/-- A configuration that is loaded is valid and comes from the file that is asked for, or else from
the nearest one. Each switch has the value of the command line, or else of the file, or else its
default; and with other switches on the command line nothing but switches would differ. -/
theorem precedence_of_load {here : SystemView} {asked? : Option Text} {overrides : Overrides}
    {config : Config} (h : load here asked? overrides = .ok config) :
    config.isValid = true ∧ IsSource here asked? config.path? ∧
      (∃ entries, Says here config.path? entries ∧ ∀ switch : Switch, ∃ inFile? : Option Bool,
        switch.written? entries = inFile?.map .boolean ∧
          switch.of config =
            ((switch.given? overrides).or inFile?).getD (switch.of {})) ∧
      ∀ others, ∃ config', load here asked? others = .ok config' ∧
        config'.withSwitchesOf config = config := by
  obtain ⟨source?, base, hsource, hbase, rfl⟩ := load_eq_ok_iff.1 h
  obtain ⟨hvalid, rfl, entries, hsays, hswitches⟩ := of_ofSource hbase
  refine ⟨hvalid, isSource_of_source? hsource, ⟨entries, hsays, fun switch => ?_⟩, fun others => ?_⟩
  · obtain ⟨inFile?, hwritten, hof⟩ := hswitches switch
    refine ⟨inFile?, hwritten, ?_⟩
    rw [of_override, hof]
    cases switch.given? overrides <;> rfl
  · exact ⟨base.override others, load_eq_ok_iff.2 ⟨_, base, hsource, hbase, rfl⟩, rfl⟩

/-- Two configuration files, one in a folder around the other, with an empty folder between. -/
def sampleTree : FileTree :=
  .folder [
    ("mdview.toml", .file (some "[toc]\nenabled = true\n")),
    ("site", .folder [
      ("mdview.toml", .file (some
        "render = [false, true]\n[toc]\nmin_level = 2\n[assets]\nbase_url = '$\x7bASSETS:-x\x7d/a'\n")),
      ("blog", .folder [("post", .folder [])])])]

/-- The view from the innermost folder. -/
def sampleView : SystemView := sampleTree.view ["site", "blog", "post"] [("ASSETS", "/static")]

/-- The nearest file is used, not the one at the root. -/
def sampleConfig : Config :=
  { math := false
    darkMode := false
    wordWrap := true
    toc := { minLevel := 2 }
    assetsBaseUrl := "/static/a"
    path? := some "/site/mdview.toml" }

theorem precedence_of_load_sampleView :
    let overrides : Overrides := { darkMode := some false, wordWrap := some true }
    load sampleView none overrides = .ok sampleConfig ∧
      sampleConfig.isValid = true ∧ IsSource sampleView none sampleConfig.path? ∧
      (∃ entries, Says sampleView sampleConfig.path? entries ∧
        ∀ switch : Switch, ∃ inFile? : Option Bool,
          switch.written? entries = inFile?.map .boolean ∧
            switch.of sampleConfig =
              ((switch.given? overrides).or inFile?).getD (switch.of {})) ∧
      ∀ others, ∃ config', load sampleView none others = .ok config' ∧
        config'.withSwitchesOf sampleConfig = sampleConfig := by
  intro overrides
  have hoption : (load sampleView none overrides).toOption = some sampleConfig := by decide +kernel
  have h := eq_ok_of_toOption hoption
  exact ⟨h, precedence_of_load h⟩

end Galley.Config
