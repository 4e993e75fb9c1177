import StaticReflection.Proofs.Declaration.NameScope
import StaticReflection.Proofs.Locating.Offer
import StaticReflection.Proofs.Locating.Rules

/-!
# Faults of a project

A project takes its paths from a configuration as they are, and one that is not a text is a
fault when it is asked for.

> `AutoloadRules.unusable_of_raises`: no lookup and no scan raises any other fault, nor this one
if all paths that are ever asked for are texts.

> `AutoloadRules.raises_of_unusable`: a path that is not a text is come to over a tree without
files, where no rule before it leads anywhere and no file is scanned.

The rules that begin with a backslash are never asked (`AutoloadRules.head?_of_applies`).
-/

namespace StaticReflection

open Folding

/-- A value that is a text. -/
def Json.IsText (j : Json) : Prop := ∃ t, j = .text t

/-! ## Paths that are not texts -/

namespace AutoloadRules

variable {r : AutoloadRules} {t : FileTree} {trees : GivenTrees} {identifier : String}

/-- A rule for an identifier has a directory that is not a text. -/
def Breaks (rules : List (String × List Json)) (identifier : String) : Prop :=
  ∃ rule ∈ rules, applies rule.1 identifier = true ∧ ∃ d ∈ rule.2, ¬d.IsText

theorem pathOf_of_isText {d : Json} (h : d.IsText) : ∃ p, r.pathOf d = .ok p := by
  obtain ⟨text, rfl⟩ := h
  exact ⟨_, rfl⟩

theorem pathOf_of_not_isText {d : Json} (h : ¬d.IsText) :
    r.pathOf d = .error (.fault .directoryNotText) := by
  cases d with
  | text text => exact absurd ⟨text, rfl⟩ h
  | _ => rfl

theorem exists_mem_cons_of_isText {d : Json} (h : d.IsText) (rest : List Json) :
    (∃ e ∈ d :: rest, ¬e.IsText) ↔ ∃ e ∈ rest, ¬e.IsText := by
  simp only [List.mem_cons, exists_eq_or_imp, h, not_true, false_or]

theorem forall_mem_cons_of_isText {d : Json} (h : d.IsText) (rest : List Json) :
    (∀ e ∈ d :: rest, e.IsText) ↔ ∀ e ∈ rest, e.IsText := by
  rw [List.forall_mem_cons, and_iff_right h]

/-- An identifier is looked up without the backslashes that it begins with. -/
theorem head?_of_applies {beginning : String}
    (h : applies beginning (Identifier.dropLeading identifier) = true) :
    beginning.toList.head? ≠ some '\\' := by
  intro hhead
  obtain ⟨rest, hrest⟩ := List.head?_eq_some_iff.mp hhead
  have hprefix := String.startsWith_string_iff.mp h
  unfold LetterCase.lower Identifier.dropLeading at hprefix
  have hbackslash (c : Char) (hc : (c == '\\') = true) : LetterCase.isEdge c = true := by
    rw [LetterCase.isEdge, hc, Bool.or_true]
  rw [String.toList_ofList, String.toList_ofList, String.toList_ofList, hrest,
    LetterCase.lowerFrom_cons, LetterCase.small_edge rfl, List.singleton_append,
    LetterCase.lowerFrom_dropWhile hbackslash rfl] at hprefix
  obtain ⟨more, hmore⟩ := hprefix
  have hnot := List.head?_dropWhile_not (· == '\\') (LetterCase.lowerFrom [] identifier.toList)
  rw [← hmore] at hnot
  cases hnot

/-- A rule is for what it begins with. -/
theorem applies_self {beginning : String} (h : beginning.toList.head? ≠ some '\\') :
    applies beginning (Identifier.dropLeading beginning) = true := by
  have hbare : Identifier.dropLeading beginning = beginning := by
    unfold Identifier.dropLeading
    cases hlist : beginning.toList with
    | nil => rw [← String.ofList_toList (s := beginning), hlist]; rfl
    | cons c rest =>
      have hc : ¬(c == '\\') = true := by
        rw [beq_iff_eq]
        rintro rfl
        rw [hlist] at h
        exact h rfl
      have hkept : (c :: rest).dropWhile (· == '\\') = c :: rest := List.dropWhile_cons_of_neg hc
      rw [hkept, ← hlist, String.ofList_toList]
  rw [hbare]
  exact String.startsWith_string_iff.mpr (List.prefix_refl _)

/-! ### Where a lookup fails -/

theorem firstFile_error {relative : Path} {directories : List Json} {f : Failure}
    (h : r.firstFile t relative directories = .error f) :
    f = .fault .directoryNotText ∧ ∃ d ∈ directories, ¬d.IsText := by
  induction directories with
  | nil => cases h
  | cons d rest ih =>
    rw [firstFile] at h
    by_cases hd : d.IsText
    · obtain ⟨p, hp⟩ := pathOf_of_isText (r := r) hd
      rw [hp] at h
      simp only [bind, Except.bind] at h
      split at h
      · cases h
      · obtain ⟨hf, e, he, hnot⟩ := ih h
        exact ⟨hf, e, List.mem_cons_of_mem _ he, hnot⟩
    · rw [pathOf_of_not_isText hd] at h
      cases h
      exact ⟨rfl, d, List.mem_cons_self .., hd⟩

theorem followRules_error {relative : String → Path} {rules : List (String × List Json)}
    {f : Failure} (h : r.followRules t identifier relative rules = .error f) :
    f = .fault .directoryNotText ∧ Breaks rules identifier := by
  induction rules with
  | nil => cases h
  | cons rule rest ih =>
    have hlater (hrest : r.followRules t identifier relative rest = .error f) :
        f = .fault .directoryNotText ∧ Breaks (rule :: rest) identifier := by
      obtain ⟨hf, other, hother, hbreaks⟩ := ih hrest
      exact ⟨hf, other, List.mem_cons_of_mem _ hother, hbreaks⟩
    rw [followRules] at h
    split at h
    next happlies =>
      cases hfirst : r.firstFile t (relative rule.1) rule.2 with
      | error g =>
        rw [hfirst] at h
        cases h
        obtain ⟨hf, hnot⟩ := firstFile_error hfirst
        exact ⟨hf, rule, List.mem_cons_self .., happlies, hnot⟩
      | ok found =>
        rw [hfirst] at h
        cases found with
        | some p => cases h
        | none => exact hlater h
    next => exact hlater h

theorem findByRules_error {f : Failure} (h : r.findByRules t identifier = .error f) :
    f = .fault .directoryNotText ∧ Breaks (r.psr4 ++ r.psr0) identifier := by
  rw [findByRules_eq] at h
  cases hnewer : r.findPsr4 t identifier with
  | error g =>
    rw [hnewer] at h
    cases h
    obtain ⟨hf, rule, hrule, hbreaks⟩ := followRules_error hnewer
    exact ⟨hf, rule, List.mem_append_left _ hrule, hbreaks⟩
  | ok found =>
    rw [hnewer] at h
    cases found with
    | some p => cases h
    | none =>
      obtain ⟨hf, rule, hrule, hbreaks⟩ := followRules_error h
      exact ⟨hf, rule, List.mem_append_right _ hrule, hbreaks⟩

/-! ### Trees without files -/

section

variable (hnone : ∀ p, t.isFile p = false)
include hnone

theorem firstFile_fileless (relative : Path) (directories : List Json) :
    ((∃ d ∈ directories, ¬d.IsText) →
        r.firstFile t relative directories = .error (.fault .directoryNotText))
      ∧ ((∀ d ∈ directories, d.IsText) → r.firstFile t relative directories = .ok none) := by
  induction directories with
  | nil =>
    constructor
    · rintro ⟨d, hd, -⟩
      cases hd
    · exact fun _ => rfl
  | cons d rest ih =>
    rw [firstFile]
    by_cases hd : d.IsText
    · obtain ⟨p, hp⟩ := pathOf_of_isText (r := r) hd
      have hskip : (do
          let candidate := (← r.pathOf d).join relative
          if t.isFile candidate then return some candidate else r.firstFile t relative rest)
          = r.firstFile t relative rest := by
        rw [hp]
        exact if_neg (by rw [hnone]; exact Bool.false_ne_true)
      rw [hskip, exists_mem_cons_of_isText hd, forall_mem_cons_of_isText hd]
      exact ih
    · rw [pathOf_of_not_isText hd]
      exact ⟨fun _ => rfl, fun hall => absurd (hall d (List.mem_cons_self ..)) hd⟩

theorem followRules_fileless (identifier : String) (relative : String → Path)
    (rules : List (String × List Json)) :
    (Breaks rules identifier →
        r.followRules t identifier relative rules = .error (.fault .directoryNotText))
      ∧ (¬Breaks rules identifier → r.followRules t identifier relative rules = .ok none) := by
  induction rules with
  | nil =>
    constructor
    · rintro ⟨rule, hrule, -⟩
      cases hrule
    · exact fun _ => rfl
  | cons rule rest ih =>
    have hcons : Breaks (rule :: rest) identifier
        ↔ (applies rule.1 identifier = true ∧ ∃ d ∈ rule.2, ¬d.IsText)
          ∨ Breaks rest identifier := by
      unfold Breaks
      simp only [List.mem_cons, exists_eq_or_imp]
    rw [hcons, followRules]
    by_cases happlies : applies rule.1 identifier = true
    · rw [if_pos happlies]
      obtain ⟨hbroken, hwhole⟩ := firstFile_fileless (r := r) hnone (relative rule.1) rule.2
      by_cases hnot : ∃ d ∈ rule.2, ¬d.IsText
      · rw [hbroken hnot]
        exact ⟨fun _ => rfl, fun hno => absurd (.inl ⟨happlies, hnot⟩) hno⟩
      · rw [hwhole (by simpa using hnot)]
        refine ⟨fun h => ih.1 ?_, fun h => ih.2 fun hrest => h (.inr hrest)⟩
        exact h.resolve_left fun hhere => hnot hhere.2
    · rw [if_neg happlies]
      refine ⟨fun h => ih.1 ?_, fun h => ih.2 fun hrest => h (.inr hrest)⟩
      exact h.resolve_left fun hhere => happlies hhere.1

/-- Without files a lookup goes through all rules for the identifier, and fails at a directory
that is not a text. -/
theorem findByRules_fileless (h : Breaks (r.psr4 ++ r.psr0) identifier) :
    r.findByRules t identifier = .error (.fault .directoryNotText) := by
  rw [findByRules_eq]
  have hnewer := followRules_fileless (r := r) hnone identifier (fun b => psr4Path b identifier)
    r.psr4
  by_cases hbreaks : Breaks r.psr4 identifier
  · rw [findPsr4, hnewer.1 hbreaks]
    rfl
  · rw [findPsr4, hnewer.2 hbreaks]
    refine (followRules_fileless hnone identifier (fun _ => psr0Path identifier) r.psr0).1 ?_
    obtain ⟨rule, hrule, hrest⟩ := h
    rcases List.mem_append.mp hrule with hrule | hrule
    · exact absurd ⟨rule, hrule, hrest⟩ hbreaks
    · exact ⟨rule, hrule, hrest⟩

end

/-! ### Where a scan fails -/

theorem addFiles_error {index : ClassIndex} {paths : List Path} {messages : List String}
    {f : Failure} (h : outcome (addFiles t trees index paths) messages = .error f) :
    ∃ p e, f = .unreadable p e := by
  induction paths generalizing index messages with
  | nil => cases h
  | cons p rest ih =>
    rw [addFiles] at h
    rcases of_bind_error h with hfetch | ⟨located, _, h⟩
    · have hfile : t.fetch none (.file p) = .error f := hfetch
      unfold FileTree.fetch at hfile
      simp only at hfile
      split at hfile
      · cases hfile
      · cases hfile
        exact ⟨_, _, rfl⟩
    · rcases of_bind_error h with hwarn | ⟨_, _, h⟩
      · cases hwarn
      · exact ih h

theorem addEntries_error {index : ClassIndex} {entries : List Json} {messages : List String}
    {f : Fault} (h : outcome (r.addEntries t trees index entries) messages = .error (.fault f)) :
    f = .directoryNotText ∧ ∃ d ∈ entries, ¬d.IsText := by
  induction entries generalizing index messages with
  | nil => cases h
  | cons d rest ih =>
    rw [addEntries] at h
    by_cases hd : d.IsText
    · rcases of_bind_error h with hpath | ⟨p, _, h⟩
      · obtain ⟨p, hp⟩ := pathOf_of_isText (r := r) hd
        have hlift : r.pathOf d = .error (.fault f) := hpath
        rw [hp] at hlift
        cases hlift
      · rcases of_bind_error h with hfiles | ⟨next, _, h⟩
        · obtain ⟨p, e, he⟩ := addFiles_error hfiles
          cases he
        · obtain ⟨hf, e, he, hnot⟩ := ih h
          exact ⟨hf, e, List.mem_cons_of_mem _ he, hnot⟩
    · have hlift : outcome (ExceptT.mk (pure (r.pathOf d)) : Warned Path) messages
          = .error (.fault .directoryNotText) := pathOf_of_not_isText hd
      rw [outcome_bind_error hlift] at h
      cases h
      exact ⟨rfl, d, List.mem_cons_self .., hd⟩

/-- Without files a scan goes through all paths, and fails at one that is not a text. -/
theorem addEntries_fileless (hnone : ∀ p, filesUnder t p = []) (trees : GivenTrees)
    (index : ClassIndex) (entries : List Json) (messages : List String) :
    ((∃ d ∈ entries, ¬d.IsText) →
        outcome (r.addEntries t trees index entries) messages = .error (.fault .directoryNotText))
      ∧ ((∀ d ∈ entries, d.IsText) →
        outcome (r.addEntries t trees index entries) messages = .ok index) := by
  induction entries with
  | nil =>
    constructor
    · rintro ⟨d, hd, -⟩
      cases hd
    · exact fun _ => rfl
  | cons d rest ih =>
    rw [addEntries]
    by_cases hd : d.IsText
    · obtain ⟨p, hp⟩ := pathOf_of_isText (r := r) hd
      have hlift : outcome (ExceptT.mk (pure (r.pathOf d)) : Warned Path) messages = .ok p := hp
      have hfiles : outcome (addFiles t trees index (filesUnder t p)) messages = .ok index := by
        rw [hnone]
        rfl
      have hstays : after (addFiles t trees index (filesUnder t p)) messages = messages := by
        rw [hnone]
        rfl
      have hunchanged : after (ExceptT.mk (pure (r.pathOf d)) : Warned Path) messages = messages :=
        rfl
      rw [outcome_bind_ok hlift, hunchanged, outcome_bind_ok hfiles, hstays,
        exists_mem_cons_of_isText hd, forall_mem_cons_of_isText hd]
      exact ih
    · have hlift : outcome (ExceptT.mk (pure (r.pathOf d)) : Warned Path) messages
          = .error (.fault .directoryNotText) := pathOf_of_not_isText hd
      rw [outcome_bind_error hlift]
      exact ⟨fun _ => rfl, fun hall => absurd (hall d (List.mem_cons_self ..)) hd⟩

end AutoloadRules

/-! ## Projects -/

/-- A tree with nothing in it. -/
def FileTree.bare : FileTree := FileTree.empty []

theorem FileTree.isFile_bare (p : Path) : FileTree.bare.isFile p = false := by
  have hfollow (place : Place) (parts : List String) (bytes : List UInt8) :
      FileTree.bare.follow place parts ≠ .ok (.file bytes) := by
    induction parts generalizing place with
    | nil =>
      unfold follow entry
      have hlookup : FileTree.bare.files.lookup place = none := rfl
      rw [hlookup]
      simp only
      split <;> exact nofun
    | cons c rest ih =>
      unfold follow
      split
      · split
        · exact ih _
        · exact ih _
      · split <;> exact nofun
  unfold isFile find
  split
  next bytes heq => exact absurd heq (hfollow _ _ bytes)
  next => rfl

theorem AutoloadRules.filesUnder_bare (p : Path) : filesUnder FileTree.bare p = [] := by
  have hbelow (place : Place) : FileTree.bare.below place = [] := by
    have hplaces : FileTree.bare.files.map (·.1) ++ FileTree.bare.directories = [[]] := rfl
    unfold FileTree.below
    rw [hplaces, List.filter_eq_nil_iff]
    intro q hq
    rw [List.mem_singleton.mp hq]
    simp
  unfold filesUnder FileTree.phpPaths
  rw [FileTree.isFile_bare, if_neg Bool.false_ne_true]
  split
  · rfl
  · simp only [hbelow]
    rw [List.filter_nil, List.map_nil, List.mergeSort_nil]

namespace World

variable {w : World} {i : Nat} {rules : AutoloadRules} {known : Option ClassIndex}

theorem outcome_findFile (hi : w.locators[i]? = some (.project rules known)) (identifier : String) :
    outcome (findFile i identifier) w = (do
      let index ← (known.map .ok).getD ((rules.index w.files w.trees).run []).1
      rules.find w.files index (Identifier.dropLeading identifier)) := by
  have hlocator : outcome (locator? i) w = .ok w.locators[i]? := rfl
  have hstays : after (locator? i) w = w := rfl
  have hfiles := (projectIndex_becomes hi).files
  unfold findFile
  rw [outcome_bind_ok hlocator, hstays, hi]
  simp only
  rw [outcome_bind, outcome_projectIndex]
  cases (known.map Except.ok).getD ((rules.index w.files w.trees).run []).1 with
  | error f => rfl
  | ok index =>
    simp only
    rw [outcome_bind_ok (outcome_get _), after_get, hfiles]
    rfl

theorem outcome_classMap (hi : w.locators[i]? = some (.project rules known)) :
    outcome (classMap i) w = (known.map .ok).getD ((rules.index w.files w.trees).run []).1 := by
  have hlocator : outcome (locator? i) w = .ok w.locators[i]? := rfl
  have hstays : after (locator? i) w = w := rfl
  unfold classMap
  rw [outcome_bind_ok hlocator, hstays, hi]
  exact outcome_projectIndex rules known

end World

/-- A project with a fault: looking some identifier up raises it, or scanning for the class map
does. -/
def AutoloadRules.Raises (r : AutoloadRules) (known : Option ClassIndex) (f : Fault) : Prop :=
  ∃ (w : World) (i : Nat), w.locators[i]? = some (.project r known)
    ∧ ((∃ identifier, outcome (World.findFile i identifier) w = .error (.fault f))
      ∨ outcome (World.classMap i) w = .error (.fault f))

/-- Some path of the class map is not a text, or some directory of a rule that is ever asked:
identifiers are looked up without the backslashes that they begin with. -/
def AutoloadMappings.Unusable (m : AutoloadMappings) : Prop :=
  (∃ d ∈ m.classmap, ¬d.IsText)
    ∨ ∃ rule ∈ m.psr4 ++ m.psr0, rule.1.toList.head? ≠ some '\\' ∧ ∃ d ∈ rule.2, ¬d.IsText

namespace AutoloadRules

/-- Nothing but a path that is not a text makes a project raise a fault. -/
theorem unusable_of_raises {root : Path} {m : AutoloadMappings} {known : Option ClassIndex}
    {f : Fault} (h : (ofMappings root m).Raises known f) :
    f = .directoryNotText ∧ m.Unusable := by
  obtain ⟨w, i, hi, hraises⟩ := h
  have hindex (hfails : (known.map .ok).getD (((ofMappings root m).index w.files w.trees).run []).1
      = .error (.fault f)) : f = .directoryNotText ∧ m.Unusable := by
    cases known with
    | some index => cases hfails
    | none =>
      obtain ⟨hf, hclassmap⟩ := addEntries_error hfails
      exact ⟨hf, .inl hclassmap⟩
  rcases hraises with ⟨identifier, hfind⟩ | hscan
  · rw [World.outcome_findFile hi] at hfind
    cases hknown : (known.map .ok).getD
        (((ofMappings root m).index w.files w.trees).run []).1 with
    | error g =>
      rw [hknown] at hfind
      cases hfind
      exact hindex hknown
    | ok index =>
      rw [hknown] at hfind
      have hrules : (ofMappings root m).find w.files index (Identifier.dropLeading identifier)
          = .error (.fault f) := hfind
      unfold find at hrules
      split at hrules
      · cases hrules
      · obtain ⟨hf, rule, hrule, happlies, hnot⟩ := findByRules_error hrules
        cases hf
        refine ⟨rfl, .inr ⟨rule, ?_, head?_of_applies happlies, hnot⟩⟩
        rcases List.mem_append.mp hrule with hrule | hrule
        · exact List.mem_append_left _ (List.mem_mergeSort.mp hrule)
        · exact List.mem_append_right _ (List.mem_mergeSort.mp hrule)
  · rw [World.outcome_classMap hi] at hscan
    exact hindex hscan

/-- A path that is not a text makes a project raise a fault before it has its class map. -/
theorem raises_of_unusable (root : Path) {m : AutoloadMappings} (h : m.Unusable) :
    (ofMappings root m).Raises none .directoryNotText := by
  have hi : (⟨.bare, [], [.project (ofMappings root m) none], []⟩ : World).locators[0]?
      = some (.project (ofMappings root m) none) := rfl
  have hscan := addEntries_fileless (r := ofMappings root m) filesUnder_bare [] [] m.classmap []
  refine ⟨_, 0, hi, ?_⟩
  by_cases hclassmap : ∃ d ∈ m.classmap, ¬d.IsText
  · right
    rw [World.outcome_classMap hi]
    exact hscan.1 hclassmap
  · left
    obtain ⟨rule, hrule, hhead, hnot⟩ := h.resolve_left hclassmap
    have hindex : ((none : Option ClassIndex).map Except.ok).getD
        (((ofMappings root m).index .bare []).run []).1 = .ok [] :=
      hscan.2 (by simpa using hclassmap)
    have hbreaks : Breaks ((ofMappings root m).psr4 ++ (ofMappings root m).psr0)
        (Identifier.dropLeading rule.1) := by
      refine ⟨rule, ?_, applies_self hhead, hnot⟩
      rcases List.mem_append.mp hrule with hrule | hrule
      · exact List.mem_append_left _ (List.mem_mergeSort.mpr hrule)
      · exact List.mem_append_right _ (List.mem_mergeSort.mpr hrule)
    refine ⟨rule.1, ?_⟩
    rw [World.outcome_findFile hi, hindex]
    exact findByRules_fileless FileTree.isFile_bare hbreaks

end AutoloadRules

end StaticReflection
