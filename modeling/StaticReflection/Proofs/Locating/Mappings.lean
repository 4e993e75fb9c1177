import StaticReflection.Proofs.Locating.ClassMap

/-!
# What is read from a configuration

A configuration is checked and then read, in two walks over the same sections.

> `ProjectConfig.check_eq_ok_iff`: the configurations that are accepted are those whose sections
have the shape of sections, and every list may hold anything.

> `ProjectConfig.mappings_eq`: each beginning of a name that any rule has is mapped to the
directories of all its rules, those for development last; and so for the class map.
-/

namespace StaticReflection

namespace ProjectConfig

/-! ## Which configurations are accepted -/

/-- A member that is absent or null, or has a shape. -/
def MayHave (j : Json) (name : String) (shape : Json → Prop) : Prop :=
  ∀ v, given? j name = some v → shape v

/-- Rules that map the beginning of a name to a text or a list. -/
def IsRules (j : Json) : Prop :=
  ∃ members, j = .object members ∧ ∀ m ∈ members, isPaths m.2 = true

/-- A section with rules of both standards and a class map. -/
structure IsSection (j : Json) : Prop where
  object : ∃ members, j = .object members
  psr4 : MayHave j "psr-4" IsRules
  psr0 : MayHave j "psr-0" IsRules
  classmap : MayHave j "classmap" fun v => ∃ paths, v = .array paths

/-- A configuration with sections. -/
structure IsConfig (config : Json) : Prop where
  object : ∃ members, config = .object members
  sections : ∀ name ∈ sectionNames, MayHave config name IsSection

section

variable {config j : Json} {name sectionName kind : String}

theorem mayHave_of_none {shape : Json → Prop} (h : given? j name = none) : MayHave j name shape :=
  fun v hv => by rw [h] at hv; cases hv

theorem mayHave_iff {shape : Json → Prop} {v : Json} (h : given? j name = some v) :
    MayHave j name shape ↔ shape v := by
  constructor
  · exact fun hmay => hmay v h
  · intro hv w hw
    rw [h] at hw
    cases hw
    exact hv

theorem seq_eq_ok_iff {ε : Type} {a b : Except ε Unit} :
    (do a; b) = .ok () ↔ a = .ok () ∧ b = .ok () := by
  cases a with
  | error e => exact iff_of_false nofun fun h => nomatch h.1
  | ok u => exact (and_iff_right rfl).symm

theorem forM_eq_ok_iff {ε α : Type} {check : α → Except ε Unit} {xs : List α} :
    xs.forM check = .ok () ↔ ∀ x ∈ xs, check x = .ok () := by
  induction xs with
  | nil => exact iff_of_true rfl nofun
  | cons x xs ih =>
    have hcons : (x :: xs).forM check = (do check x; xs.forM check) := rfl
    rw [hcons, seq_eq_ok_iff, ih, List.forall_mem_cons]

theorem checkRules_eq_ok_iff :
    checkRules sectionName kind j = .ok () ↔ MayHave j kind IsRules := by
  unfold checkRules
  cases hgiven : given? j kind with
  | none => exact iff_of_true rfl (mayHave_of_none hgiven)
  | some v =>
    rw [mayHave_iff hgiven]
    cases v with
    | object members =>
      have hrules : IsRules (.object members) ↔ ∀ m ∈ members, isPaths m.2 = true :=
        ⟨fun ⟨_, heq, hall⟩ => by cases heq; exact hall, fun hall => ⟨members, rfl, hall⟩⟩
      rw [hrules]
      simp only
      split
      next rule paths hfind =>
        refine iff_of_false nofun fun hall => ?_
        have hbad := List.find?_some hfind
        simp only at hbad
        rw [hall (rule, paths) (List.mem_of_find?_eq_some hfind)] at hbad
        cases hbad
      next hfind =>
        rw [List.find?_eq_none] at hfind
        exact iff_of_true rfl fun m hm => by simpa using hfind m hm
    | _ => exact iff_of_false nofun fun ⟨_, heq, _⟩ => by cases heq

/-- Checks the class map of a section. -/
def checkClassmap (sectionName : String) (j : Json) : Except ConfigError Unit :=
  match given? j "classmap" with
  | none => .ok ()
  | some (.array _) => .ok ()
  | some _ => .error (.classmapNotAList sectionName)

theorem checkClassmap_eq_ok_iff : checkClassmap sectionName j = .ok ()
    ↔ MayHave j "classmap" fun v => ∃ paths, v = .array paths := by
  unfold checkClassmap
  cases hgiven : given? j "classmap" with
  | none => exact iff_of_true rfl (mayHave_of_none hgiven)
  | some v =>
    rw [mayHave_iff hgiven]
    cases v with
    | array paths => exact iff_of_true rfl ⟨paths, rfl⟩
    | _ => exact iff_of_false nofun fun ⟨_, heq⟩ => by cases heq

theorem checkSection_eq_ok_iff :
    checkSection config sectionName = .ok () ↔ MayHave config sectionName IsSection := by
  unfold checkSection
  cases hgiven : given? config sectionName with
  | none => exact iff_of_true rfl (mayHave_of_none hgiven)
  | some v =>
    rw [mayHave_iff hgiven]
    cases v with
    | object members =>
      simp only
      show (do
        checkRules sectionName "psr-4" (.object members)
        checkRules sectionName "psr-0" (.object members)
        checkClassmap sectionName (.object members)) = _ ↔ _
      rw [seq_eq_ok_iff, seq_eq_ok_iff, checkRules_eq_ok_iff, checkRules_eq_ok_iff,
        checkClassmap_eq_ok_iff]
      exact ⟨fun h => ⟨⟨members, rfl⟩, h.1, h.2.1, h.2.2⟩, fun h => ⟨h.psr4, h.psr0, h.classmap⟩⟩
    | _ => exact iff_of_false nofun fun h => by obtain ⟨_, heq⟩ := h.object; cases heq

/-- The configurations that the check accepts. -/
theorem check_eq_ok_iff : check config = .ok () ↔ IsConfig config := by
  cases config with
  | object members =>
    have hsections : check (.object members) = sectionNames.forM (checkSection (.object members)) :=
      rfl
    rw [hsections, forM_eq_ok_iff]
    simp only [checkSection_eq_ok_iff]
    exact ⟨fun h => ⟨⟨members, rfl⟩, h⟩, fun h => h.sections⟩
  | _ => exact iff_of_false nofun fun h => by obtain ⟨_, heq⟩ := h.object; cases heq

end

/-! ## What is read -/

/-- The members of a value, if it is an object. -/
def membersOf : Option Json → List (Text × Json)
  | some (.object members) => members
  | _ => []

/-- The items of a value, if it is a list. -/
def itemsOf : Option Json → List Json
  | some (.array items) => items
  | _ => []

/-- The rules of one standard in a section, as they are written. -/
def rulesIn (config : Json) (sectionName kind : String) : List (Text × Json) :=
  membersOf ((config.member? sectionName).bind (·.member? kind))

/-- The class map in a section. -/
def classmapIn (config : Json) (sectionName : String) : List Json :=
  itemsOf ((config.member? sectionName).bind (·.member? "classmap"))

/-- The directories that some rules have for a beginning, in their order. -/
def directoriesOf (rules : List (Text × Json)) (beginning : String) : List Json :=
  (rules.filter fun rule => rule.1.display == beginning).flatMap fun rule => pathsOf rule.2

/-- What the section for development adds, if it counts. -/
def ifDev {α : Type} (includeDev : Bool) (more : List α) : List α := if includeDev then more else []

/-- The beginnings that a configuration has rules for, in the order of their first mention. -/
def beginnings (config : Json) (includeDev : Bool) (kind : String) : List String :=
  ((rulesIn config "autoload" kind ++ ifDev includeDev (rulesIn config "autoload-dev" kind)).map
    (·.1.display)).eraseDups

/-- The rules of a configuration: each beginning with its directories, those for development
last. -/
def declared (config : Json) (includeDev : Bool) (kind : String) : List (String × List Json) :=
  (beginnings config includeDev kind).map fun b =>
    (b, directoriesOf (rulesIn config "autoload" kind) b
      ++ ifDev includeDev (directoriesOf (rulesIn config "autoload-dev" kind) b))

/-- Some rules with one for each beginning. -/
def merged (rules : List (Text × Json)) : List (String × List Json) :=
  (rules.map (·.1.display)).eraseDups.map fun b => (b, directoriesOf rules b)

theorem directoriesOf_append (rules more : List (Text × Json)) (b : String) :
    directoriesOf (rules ++ more) b = directoriesOf rules b ++ directoriesOf more b := by
  unfold directoriesOf
  rw [List.filter_append, List.flatMap_append]

theorem directoriesOf_singleton (rule : Text × Json) (b : String) :
    directoriesOf [rule] b = if rule.1.display == b then pathsOf rule.2 else [] := by
  unfold directoriesOf
  rw [List.filter_cons]
  split
  · exact List.flatMap_singleton ..
  · rfl

theorem addRule_absent {bs : List String} {beginning : String} (h : beginning ∉ bs)
    (f : String → List Json) (paths : List Json) :
    addRule beginning paths (bs.map fun b => (b, f b))
      = (bs.map fun b => (b, f b)) ++ [(beginning, paths)] := by
  induction bs with
  | nil => rfl
  | cons b bs ih =>
    have hne : ¬(b == beginning) = true := by
      rw [beq_iff_eq]
      exact Ne.symm (List.ne_of_not_mem_cons h)
    rw [List.map_cons, addRule, if_neg hne, ih (List.not_mem_of_not_mem_cons h)]
    rfl

theorem addRule_present {bs : List String} {beginning : String} (h : beginning ∈ bs)
    (hnodup : bs.Nodup) (f : String → List Json) (paths : List Json) :
    addRule beginning paths (bs.map fun b => (b, f b))
      = bs.map fun b => (b, f b ++ if beginning == b then paths else []) := by
  induction bs with
  | nil => cases h
  | cons b bs ih =>
    obtain ⟨hb, hnodup⟩ := List.nodup_cons.mp hnodup
    rw [List.map_cons, List.map_cons, addRule]
    by_cases heq : b = beginning
    · subst heq
      rw [if_pos (beq_self_eq_true _), if_pos (beq_self_eq_true _)]
      -- no other rule has this beginning
      refine congrArg _ (List.map_congr_left fun c hc => ?_)
      have hne : ¬(b == c) = true := by
        rw [beq_iff_eq]
        rintro rfl
        exact hb hc
      rw [if_neg hne, List.append_nil]
    · have hmem : beginning ∈ bs := by
        rcases List.mem_cons.mp h with rfl | hmem
        · exact absurd rfl heq
        · exact hmem
      have hne : ¬(beginning == b) = true := by
        rw [beq_iff_eq]
        exact Ne.symm heq
      rw [if_neg (by rwa [beq_iff_eq]), ih hmem hnodup, if_neg hne, List.append_nil]

theorem eraseDups_concat (bs : List String) (b : String) :
    (bs ++ [b]).eraseDups = if b ∈ bs then bs.eraseDups else bs.eraseDups ++ [b] := by
  rw [List.eraseDups_append, List.removeAll, List.filter_cons, List.filter_nil]
  by_cases hmem : b ∈ bs
  · have hknown : (!bs.elem b) = false := by simpa using hmem
    rw [hknown, if_neg Bool.false_ne_true, if_pos hmem, List.eraseDups_nil, List.append_nil]
  · have hnew : (!bs.elem b) = true := by simpa using hmem
    rw [hnew, if_pos rfl, if_neg hmem, List.eraseDups_cons, List.filter_nil, List.eraseDups_nil]

/-- One more rule adds its directories to those of its beginning, which may be new. -/
theorem addRule_merged (rules : List (Text × Json)) (rule : Text × Json) :
    addRule rule.1.display (pathsOf rule.2) (merged rules) = merged (rules ++ [rule]) := by
  unfold merged
  rw [List.map_append, List.map_singleton, eraseDups_concat]
  simp only [directoriesOf_append, directoriesOf_singleton]
  by_cases hmem : rule.1.display ∈ rules.map (·.1.display)
  · rw [if_pos hmem, addRule_present (List.mem_eraseDups.mpr hmem) (nodup_eraseDups _)]
  · have hnone : directoriesOf rules rule.1.display = [] := by
      unfold directoriesOf
      rw [List.filter_eq_nil_iff.mpr, List.flatMap_nil]
      intro r hr heq
      exact hmem (List.mem_map.mpr ⟨r, hr, eq_of_beq heq⟩)
    rw [if_neg hmem, addRule_absent (fun h => hmem (List.mem_eraseDups.mp h)), List.map_append,
      List.map_singleton, hnone, if_pos (beq_self_eq_true _), List.nil_append]
    refine congrArg (· ++ _) (List.map_congr_left fun b hb => ?_)
    have hne : ¬(rule.1.display == b) = true := by
      rw [beq_iff_eq]
      rintro rfl
      exact hmem (List.mem_eraseDups.mp hb)
    rw [if_neg hne, List.append_nil]

theorem foldl_addRule (rules more : List (Text × Json)) :
    more.foldl (fun acc (rule, paths) => addRule rule.display (pathsOf paths) acc) (merged rules)
      = merged (rules ++ more) := by
  induction more generalizing rules with
  | nil => rw [List.append_nil]; rfl
  | cons rule more ih =>
    rw [List.append_cons, ← ih, ← addRule_merged]
    rfl

theorem addRules_merged (content : Json) (kind : String) (rules : List (Text × Json)) :
    addRules content kind (merged rules) = merged (rules ++ membersOf (content.member? kind)) := by
  unfold addRules
  cases content.member? kind with
  | none => rw [membersOf, List.append_nil]; exact nofun
  | some v =>
    cases v with
    | object members => exact foldl_addRule rules members
    | _ => exact congrArg merged (List.append_nil rules).symm

/-- A section adds its rules and its class map. -/
theorem addSection_merged (config : Json) (newer older : List (Text × Json)) (paths : List Json)
    (sectionName : String) :
    addSection config ⟨merged newer, merged older, paths⟩ sectionName
      = ⟨merged (newer ++ rulesIn config sectionName "psr-4"),
          merged (older ++ rulesIn config sectionName "psr-0"),
          paths ++ classmapIn config sectionName⟩ := by
  unfold addSection rulesIn classmapIn
  cases config.member? sectionName with
  | none =>
    simp only [Option.bind_none]
    rw [membersOf, itemsOf, List.append_nil, List.append_nil, List.append_nil]
    all_goals exact nofun
  | some content =>
    simp only [Option.bind_some]
    rw [addRules_merged, addRules_merged]
    refine congrArg (AutoloadMappings.mk _ _ <| paths ++ ·) ?_
    cases content.member? "classmap" with
    | none => rfl
    | some v => cases v <;> rfl

theorem merged_declared (config : Json) (includeDev : Bool) (kind : String) :
    merged (rulesIn config "autoload" kind ++ ifDev includeDev (rulesIn config "autoload-dev" kind))
      = declared config includeDev kind := by
  unfold merged declared beginnings
  simp only [directoriesOf_append]
  cases includeDev <;> rfl

/-- The mappings are those that a configuration declares. -/
theorem mappings_eq (config : Json) (includeDev : Bool) :
    mappings config includeDev = ⟨declared config includeDev "psr-4",
      declared config includeDev "psr-0",
      classmapIn config "autoload" ++ ifDev includeDev (classmapIn config "autoload-dev")⟩ := by
  have hempty : (⟨[], [], []⟩ : AutoloadMappings) = ⟨merged [], merged [], []⟩ := rfl
  have hfirst := addSection_merged config [] [] [] "autoload"
  rw [List.nil_append, List.nil_append, List.nil_append, ← hempty] at hfirst
  rw [← merged_declared, ← merged_declared]
  cases includeDev with
  | false =>
    have hone : mappings config false = addSection config ⟨[], [], []⟩ "autoload" := rfl
    rw [hone, hfirst]
    unfold ifDev
    rw [if_neg Bool.false_ne_true, if_neg Bool.false_ne_true, if_neg Bool.false_ne_true,
      List.append_nil, List.append_nil, List.append_nil]
  | true =>
    have htwo : mappings config true
        = addSection config (addSection config ⟨[], [], []⟩ "autoload") "autoload-dev" := rfl
    rw [htwo, hfirst, addSection_merged]
    rfl

end ProjectConfig

end StaticReflection
