import StaticReflection.Proofs.Locating.Faults
import StaticReflection.Proofs.Locating.Mappings

/-!
# What an accepted configuration is good for

The check looks at the shape of sections and not at what stands in a list, and reading passes
lists on as they are.

> `ProjectConfig.mappings_accepted`: a project of an accepted configuration never raises a fault,
on any lookup or scan over any files, unless a list has an item that is not a text; and then it
does.
-/

namespace StaticReflection

/-! ## Lists with other items -/

namespace ProjectConfig

/-- The sections that count. -/
def sectionsFor (includeDev : Bool) : List String := "autoload" :: ifDev includeDev ["autoload-dev"]

/-- A list in a section that counts has an item that is not a text: the class map, or the
directories of a rule that is ever asked. -/
def ListsOther (config : Json) (includeDev : Bool) : Prop :=
  ∃ name ∈ sectionsFor includeDev,
    (∃ d ∈ classmapIn config name, ¬d.IsText)
      ∨ ∃ kind ∈ ["psr-4", "psr-0"], ∃ rule ∈ rulesIn config name kind,
        rule.1.display.toList.head? ≠ some '\\'
          ∧ ∃ items, rule.2 = .array items ∧ ∃ d ∈ items, ¬d.IsText

section

variable {config : Json} {includeDev : Bool} {name kind : String}

theorem mem_sectionsFor (h : name ∈ sectionsFor includeDev) : name ∈ sectionNames := by
  unfold sectionsFor ifDev at h
  cases includeDev with
  | true => exact h
  | false => exact List.mem_cons.mpr (.inl (List.mem_singleton.mp h))

theorem given?_of_member? {j v : Json} (h : j.member? name = some v) (hv : v ≠ .null) :
    given? j name = some v := by
  unfold given?
  rw [h]
  cases v with
  | null => exact absurd rfl hv
  | _ => rfl

/-- The rules of an accepted configuration map to texts and lists. -/
theorem IsConfig.isPaths (h : IsConfig config) (hname : name ∈ sectionNames)
    (hkind : kind ∈ ["psr-4", "psr-0"]) {rule : Text × Json}
    (hrule : rule ∈ rulesIn config name kind) :
    isPaths rule.2 = true := by
  unfold rulesIn at hrule
  cases hcontent : config.member? name with
  | none => rw [hcontent] at hrule; cases hrule
  | some content =>
    rw [hcontent, Option.bind_some] at hrule
    cases hrules : content.member? kind with
    | none => rw [hrules] at hrule; cases hrule
    | some v =>
      rw [hrules] at hrule
      have hobject : content ≠ .null := by rintro rfl; cases hrules
      have hsection := h.sections name hname content (given?_of_member? hcontent hobject)
      have hmay : MayHave content kind IsRules := by
        rcases List.mem_cons.mp hkind with rfl | hkind
        · exact hsection.psr4
        · rw [List.mem_singleton.mp hkind]
          exact hsection.psr0
      have hmembers : v ≠ .null := by rintro rfl; cases hrule
      obtain ⟨members, rfl, hall⟩ := hmay v (given?_of_member? hrules hmembers)
      exact hall rule hrule

theorem exists_mem_pathsOf_iff {j : Json} (h : isPaths j = true) :
    (∃ d ∈ pathsOf j, ¬d.IsText) ↔ ∃ items, j = .array items ∧ ∃ d ∈ items, ¬d.IsText := by
  cases j with
  | text text =>
    refine iff_of_false (fun ⟨d, hd, hnot⟩ => hnot ⟨text, List.mem_singleton.mp hd⟩) ?_
    rintro ⟨items, heq, _⟩
    cases heq
  | array items =>
    constructor
    · exact fun hother => ⟨items, rfl, hother⟩
    · rintro ⟨_, heq, hother⟩
      cases heq
      exact hother
  | _ => cases h

theorem mem_directoriesOf {rules : List (Text × Json)} {beginning : String} {d : Json} :
    d ∈ directoriesOf rules beginning
      ↔ ∃ rule ∈ rules, rule.1.display = beginning ∧ d ∈ pathsOf rule.2 := by
  unfold directoriesOf
  simp only [List.mem_flatMap, List.mem_filter, beq_iff_eq, and_assoc]

theorem exists_mem_merged_iff {rules : List (Text × Json)} {p : String → Prop} {q : Json → Prop} :
    (∃ rule ∈ merged rules, p rule.1 ∧ ∃ d ∈ rule.2, q d)
      ↔ ∃ rule ∈ rules, p rule.1.display ∧ ∃ d ∈ pathsOf rule.2, q d := by
  unfold merged
  constructor
  · rintro ⟨_, hmem, hp, d, hd, hq⟩
    obtain ⟨b, _, rfl⟩ := List.mem_map.mp hmem
    obtain ⟨rule, hrule, rfl, hpaths⟩ := mem_directoriesOf.mp hd
    exact ⟨rule, hrule, hp, d, hpaths, hq⟩
  · rintro ⟨rule, hrule, hp, d, hd, hq⟩
    have hbeginning : rule.1.display ∈ (rules.map (·.1.display)).eraseDups :=
      List.mem_eraseDups.mpr (List.mem_map.mpr ⟨rule, hrule, rfl⟩)
    exact ⟨_, List.mem_map.mpr ⟨_, hbeginning, rfl⟩, hp, d,
      mem_directoriesOf.mpr ⟨rule, hrule, rfl, hd⟩, hq⟩

theorem mem_append_ifDev {α : Type} {f : String → List α} {a : α} :
    a ∈ f "autoload" ++ ifDev includeDev (f "autoload-dev")
      ↔ ∃ name ∈ sectionsFor includeDev, a ∈ f name := by
  unfold sectionsFor ifDev
  cases includeDev <;> simp

theorem exists_mem_declared_iff (h : IsConfig config) (includeDev : Bool)
    (hkind : kind ∈ ["psr-4", "psr-0"]) :
    (∃ rule ∈ declared config includeDev kind,
        rule.1.toList.head? ≠ some '\\' ∧ ∃ d ∈ rule.2, ¬d.IsText)
      ↔ ∃ name ∈ sectionsFor includeDev, ∃ rule ∈ rulesIn config name kind,
        rule.1.display.toList.head? ≠ some '\\'
          ∧ ∃ items, rule.2 = .array items ∧ ∃ d ∈ items, ¬d.IsText := by
  rw [← merged_declared, exists_mem_merged_iff (p := fun b => b.toList.head? ≠ some '\\')]
  constructor
  · rintro ⟨rule, hrule, hhead, hother⟩
    obtain ⟨name, hname, hrule⟩ := (mem_append_ifDev (f := (rulesIn config · kind))).mp hrule
    rw [exists_mem_pathsOf_iff (h.isPaths (mem_sectionsFor hname) hkind hrule)] at hother
    exact ⟨name, hname, rule, hrule, hhead, hother⟩
  · rintro ⟨name, hname, rule, hrule, hhead, hother⟩
    rw [← exists_mem_pathsOf_iff (h.isPaths (mem_sectionsFor hname) hkind hrule)] at hother
    exact ⟨rule, (mem_append_ifDev (f := (rulesIn config · kind))).mpr ⟨name, hname, hrule⟩,
      hhead, hother⟩

/-- The mappings of an accepted configuration cannot be used if a list has another item. -/
theorem unusable_iff (h : IsConfig config) :
    (mappings config includeDev).Unusable ↔ ListsOther config includeDev := by
  have hclassmap : (∃ d ∈ (mappings config includeDev).classmap, ¬d.IsText)
      ↔ ∃ name ∈ sectionsFor includeDev, ∃ d ∈ classmapIn config name, ¬d.IsText := by
    rw [mappings_eq]
    constructor
    · rintro ⟨d, hd, hnot⟩
      obtain ⟨name, hname, hd⟩ := mem_append_ifDev.mp hd
      exact ⟨name, hname, d, hd, hnot⟩
    · rintro ⟨name, hname, d, hd, hnot⟩
      exact ⟨d, mem_append_ifDev.mpr ⟨name, hname, hd⟩, hnot⟩
  have hrules : (∃ rule ∈ (mappings config includeDev).psr4 ++ (mappings config includeDev).psr0,
        rule.1.toList.head? ≠ some '\\' ∧ ∃ d ∈ rule.2, ¬d.IsText)
      ↔ ∃ name ∈ sectionsFor includeDev, ∃ kind ∈ ["psr-4", "psr-0"],
        ∃ rule ∈ rulesIn config name kind, rule.1.display.toList.head? ≠ some '\\'
          ∧ ∃ items, rule.2 = .array items ∧ ∃ d ∈ items, ¬d.IsText := by
    have hfirst : "psr-4" ∈ ["psr-4", "psr-0"] := List.mem_cons_self ..
    have hlast : "psr-0" ∈ ["psr-4", "psr-0"] := List.mem_cons_of_mem _ (List.mem_cons_self ..)
    have hnewer := exists_mem_declared_iff h includeDev hfirst
    have holder := exists_mem_declared_iff h includeDev hlast
    rw [mappings_eq]
    simp only [List.mem_append, or_and_right, exists_or, List.mem_cons, List.not_mem_nil, or_false,
      exists_eq_left, and_or_left] at hnewer holder ⊢
    rw [hnewer, holder]
  unfold AutoloadMappings.Unusable ListsOther
  rw [hclassmap, hrules, ← exists_or]
  simp only [and_or_left]

end

/-! ## Accepted configurations -/

theorem rulesIn_congr {config other : Json} {name : String}
    (h : other.member? name = config.member? name) (kind : String) :
    rulesIn other name kind = rulesIn config name kind := by
  unfold rulesIn
  rw [h]

/-- A configuration is accepted if its sections have their shape. It maps each beginning to its
directories, those for development last and on request only. Its project raises no fault, on any
lookup or scan over any files, unless a list that counts has an item which is not a text, and
then it does. -/
theorem mappings_accepted (config : Json) (includeDev : Bool) :
    (check config = .ok () ↔ IsConfig config)
      ∧ (check config = .ok () →
        mappings config includeDev = ⟨declared config includeDev "psr-4",
            declared config includeDev "psr-0",
            classmapIn config "autoload" ++ ifDev includeDev (classmapIn config "autoload-dev")⟩
          ∧ (∀ other : Json, other.member? "autoload" = config.member? "autoload" →
            mappings other false = mappings config false)
          ∧ ∀ root : Path,
            (ListsOther config includeDev →
              (AutoloadRules.ofMappings root (mappings config includeDev)).Raises none
                .directoryNotText)
            ∧ ∀ (known : Option ClassIndex) (f : Fault),
              (AutoloadRules.ofMappings root (mappings config includeDev)).Raises known f →
                f = .directoryNotText ∧ ListsOther config includeDev) := by
  refine ⟨check_eq_ok_iff, fun h => ⟨mappings_eq config includeDev, fun other hother => ?_,
    fun root => ?_⟩⟩
  · rw [mappings_eq, mappings_eq]
    unfold declared beginnings classmapIn ifDev
    simp only [rulesIn_congr hother, hother, Bool.false_eq_true, if_false]
  · have hconfig := check_eq_ok_iff.mp h
    refine ⟨fun hlists => ?_, fun known f hraises => ?_⟩
    · exact AutoloadRules.raises_of_unusable root ((unusable_iff hconfig).mpr hlists)
    · obtain ⟨hf, hunusable⟩ := AutoloadRules.unusable_of_raises hraises
      exact ⟨hf, (unusable_iff hconfig).mp hunusable⟩

/-- A configuration with a rule whose list of directories holds a number. -/
def numberConfig : Json :=
  .object [(Text.ofString "autoload",
    .object [(Text.ofString "psr-4", .object [(Text.ofString "A\\", .array [.int 1])])])]

/-- The number is accepted, and a lookup comes to it. -/
theorem mappings_accepted_number :
    check numberConfig = .ok () ∧ ListsOther numberConfig false
      ∧ (AutoloadRules.ofMappings (Path.ofString ".") (mappings numberConfig false)).Raises none
        .directoryNotText := by
  have hcheck : check numberConfig = .ok () := rfl
  have hlists : ListsOther numberConfig false := by
    refine ⟨"autoload", List.mem_cons_self .., .inr ⟨"psr-4", List.mem_cons_self .., ?_⟩⟩
    refine ⟨(Text.ofString "A\\", .array [.int 1]), List.mem_singleton.mpr rfl, by decide, ?_⟩
    exact ⟨[.int 1], rfl, .int 1, List.mem_singleton.mpr rfl, nofun⟩
  exact ⟨hcheck, hlists, (((mappings_accepted numberConfig false).2 hcheck).2.2 _).1 hlists⟩

end ProjectConfig

end StaticReflection
