import StaticReflection.Proofs.Declaration.Regions
import StaticReflection.Proofs.Declaration.Spelled
import StaticReflection.Proofs.Locating.ClassMap
import StaticReflection.Proofs.Locating.Offer
import StaticReflection.Proofs.Reflection.FirstComer

/-!
# Classes of a class map

A project whose class map is asked for a class, reflects it and lists it, by way of different
code: the map is looked up, the file that it leads to is searched, and the files of the map are
read one after the other.

> `Store.classMap_agrees`: all three come to the first class-like with the key in the first
> scanned file that declares one, whatever was asked before.
-/

namespace StaticReflection

open Folding Outcome Reflector Store AutoloadRules

/-- The class-likes of the file at a path. -/
def AutoloadRules.classesAt (t : FileTree) (trees : GivenTrees) (p : Path) : List ReflectedClass :=
  World.classesIn (sourceAt t trees p)

/-- The world of one project in which nothing has been asked. -/
def World.ofProject (t : FileTree) (trees : GivenTrees) (rules : AutoloadRules) : World :=
  ⟨t, trees, [.project rules none], []⟩

theorem World.isSteady_ofProject (t : FileTree) (trees : GivenTrees) (rules : AutoloadRules) :
    (ofProject t trees rules).IsSteady := fun answers h => by
  cases List.mem_singleton.mp h

/-- A class is searched in the source that the only locator offers. -/
theorem World.searched_single {w : World} {key identifier : String} {i : Nat}
    {offered : Option LocatedSource} (h : outcome (locateAt i identifier) w = .ok offered) :
    w.searched key identifier [i]
      = .ok (offered.bind fun located =>
        findIn (w.trees.parse located.text located.origin) key) := by
  rw [searched, h, Outcome.ok_bind]
  cases offered.bind fun located => findIn (w.trees.parse located.text located.origin) key <;> rfl

/-- The store over such a world. -/
def Store.ofProject (t : FileTree) (trees : GivenTrees) (rules : AutoloadRules) : Store :=
  ofWorld (World.ofProject t trees rules)

theorem Store.over_ofProject (t : FileTree) (trees : GivenTrees) (rules : AutoloadRules)
    (lookups : List Lookup) :
    ((Store.ofProject t trees rules).afterLookups lookups).Over (World.ofProject t trees rules) :=
  ((over_ofWorld _).afterLookups (World.isSteady_ofProject t trees rules) lookups).1

/-- A project with a class map of files that can be read. -/
structure AutoloadRules.Maps (rules : AutoloadRules) (t : FileTree) (trees : GivenTrees)
    (scanned : List Path) (index : ClassIndex) : Prop where
  made : outcome (rules.index t trees) [] = .ok index
  indexes : Indexes (declaresKey t trees) scanned index
  files : ∀ p ∈ scanned, t.isFile p = true

theorem findIn_sourceAt (t : FileTree) (trees : GivenTrees) (key : String) (p : Path) :
    findIn (sourceAt t trees p) key = (classesAt t trees p).find? fun c => c.key == key :=
  findIn_eq _ key

theorem isSome_findIn {t : FileTree} {trees : GivenTrees} {key : String} {p : Path} :
    (findIn (sourceAt t trees p) key).isSome = declaresKey t trees key p := by
  unfold findIn declaresKey
  rw [Option.isSome_map, List.isSome_find?]

/-- A class-like of some files has a first file with its key, and a first in that with it. -/
theorem exists_first {t : FileTree} {trees : GivenTrees} {paths : List Path} {p : Path}
    {c : ReflectedClass} (hp : p ∈ paths) (hc : c ∈ classesAt t trees p) :
    ∃ f d, paths.find? (declaresKey t trees c.key) = some f
      ∧ findIn (sourceAt t trees f) c.key = some d := by
  have hdeclares : declaresKey t trees c.key p = true := by
    rw [← isSome_findIn, findIn_sourceAt, List.find?_isSome]
    exact ⟨c, hc, beq_self_eq_true _⟩
  obtain ⟨f, hf⟩ := Option.isSome_iff_exists.mp
    (List.find?_isSome.mpr ⟨p, hp, hdeclares⟩ : (paths.find? (declaresKey t trees c.key)).isSome)
  obtain ⟨d, hd⟩ := Option.isSome_iff_exists.mp (isSome_findIn.trans (List.find?_some hf))
  exact ⟨f, d, hf, hd⟩

section

variable {rules : AutoloadRules} {t : FileTree} {trees : GivenTrees} {scanned : List Path}
  {index : ClassIndex} (h : rules.Maps t trees scanned index)
include h

/-! ## Looking up -/

theorem findFile_mapped {identifier : String} {f : Path}
    (hf : scanned.find?
        (declaresKey t trees (Identifier.normalize (Identifier.dropLeading identifier)))
      = some f) :
    outcome (World.findFile 0 identifier) (World.ofProject t trees rules) = .ok (some f) := by
  have hlocator : outcome (World.locator? 0) (World.ofProject t trees rules)
      = .ok (some (.project rules none)) := rfl
  have hindex : outcome (World.projectIndex 0 rules none) (World.ofProject t trees rules)
      = .ok index := by
    rw [World.outcome_projectIndex]
    exact h.made
  have hbecomes : (World.ofProject t trees rules).Becomes
      (after (World.projectIndex 0 rules none) (World.ofProject t trees rules)) :=
    World.projectIndex_becomes rfl
  have hfiles :
      (after (World.projectIndex 0 rules none) (World.ofProject t trees rules)).files = t :=
    hbecomes.files
  unfold World.findFile
  rw [outcome_bind_ok hlocator]
  show outcome (World.projectIndex 0 rules none >>= _) (World.ofProject t trees rules) = _
  rw [outcome_bind_ok hindex, outcome_bind_ok (outcome_get _), after_get, hfiles]
  exact find_of_lookup rules ((h.indexes.first _).trans hf)

theorem supply_mapped (identifier : String) :
    (Locator.project rules none).supply t trees identifier
      = (do return (← rules.find t index (Identifier.dropLeading identifier)).map .file) := by
  unfold Locator.supply
  simp only
  rw [Option.map_none, Option.getD_none]
  show (outcome (rules.index t trees) [] >>= _) = _
  rw [h.made]
  rfl

theorem locateAt_mapped {identifier : String} {f : Path}
    (hf : scanned.find?
        (declaresKey t trees (Identifier.normalize (Identifier.dropLeading identifier)))
      = some f) :
    outcome (World.locateAt 0 identifier) (World.ofProject t trees rules)
      = .ok (some ⟨t.textAt f, f.toText, some identifier⟩) := by
  rw [World.outcome_locateAt]
  show (Locator.project rules none).offer t trees identifier = _
  unfold Locator.offer
  rw [supply_mapped h, find_of_lookup rules ((h.indexes.first _).trans hf)]
  show (t.fetch (some identifier) (.file f) >>= fun located => .ok (some located)) = _
  rw [FileTree.fetch_file (h.files f (List.mem_of_find?_eq_some hf))]
  rfl

/-- What no scanned file declares is left to the rules. -/
theorem locateAt_unmapped {identifier : String}
    (hf : scanned.find?
        (declaresKey t trees (Identifier.normalize (Identifier.dropLeading identifier)))
      = none) (hrules : rules.findByRules t (Identifier.dropLeading identifier) = .ok none) :
    outcome (World.locateAt 0 identifier) (World.ofProject t trees rules) = .ok none := by
  have hfind : rules.find t index (Identifier.dropLeading identifier) = .ok none := by
    unfold find
    rw [h.indexes.first, hf]
    exact hrules
  rw [World.outcome_locateAt]
  show (Locator.project rules none).offer t trees identifier = _
  unfold Locator.offer
  rw [supply_mapped h, hfind]
  rfl

/-- An identifier whose key begins with no blank names what the file has under it. -/
theorem named_mapped {identifier key : String} {f : Path} {c : ReflectedClass}
    (hkey : Identifier.normalize identifier = key) (hbare : Identifier.IsBare key)
    (hf : scanned.find? (declaresKey t trees key) = some f)
    (hc : findIn (sourceAt t trees f) key = some c) :
    (World.ofProject t trees rules).named identifier = .ok (some c) := by
  subst hkey
  have hlocated : outcome (World.locateAt 0 (Identifier.trimmed identifier))
      (World.ofProject t trees rules)
        = .ok (some ⟨t.textAt f, f.toText, some (Identifier.trimmed identifier)⟩) :=
    locateAt_mapped h ((Identifier.normalize_trimmed hbare).symm ▸ hf)
  have hrange : List.range (World.ofProject t trees rules).locators.length = [0] := rfl
  unfold World.named
  rw [hrange, World.searched_single hlocated, Option.bind_some]
  exact congrArg Except.ok hc

/-! ## Listing -/

theorem supplies_mapped :
    outcome (World.supplies 0) (World.ofProject t trees rules)
      = .ok ((filesOf index).map .file) := by
  have hlocator : outcome (World.locator? 0) (World.ofProject t trees rules)
      = .ok (some (.project rules none)) := rfl
  have hstays : after (World.locator? 0) (World.ofProject t trees rules)
      = World.ofProject t trees rules := rfl
  have hindex : outcome (World.classMap 0) (World.ofProject t trees rules) = .ok index := by
    unfold World.classMap
    rw [outcome_bind_ok hlocator, hstays]
    simp only
    rw [World.outcome_projectIndex]
    exact h.made
  unfold World.supplies
  rw [outcome_bind_ok hlocator, hstays]
  simp only
  rw [outcome_bind_ok hindex, outcome_pure]
  rfl

theorem isFile_of_mem_filesOf {p : Path} (hp : p ∈ filesOf index) : t.isFile p = true := by
  obtain ⟨key, hfirst⟩ := (h.indexes.mem_filesOf_iff p).mp hp
  exact h.files p (List.mem_of_find?_eq_some hfirst)

theorem comeUpon_filesOf :
    (World.ofProject t trees rules).comeUpon (((filesOf index).map .file).map (t.fetch none))
      = (filesOf index).flatMap (classesAt t trees) := by
  have hcome (paths : List Path) (hpaths : ∀ p ∈ paths, t.isFile p = true) :
      (World.ofProject t trees rules).comeUpon ((paths.map .file).map (t.fetch none))
        = paths.flatMap (classesAt t trees) := by
    induction paths with
    | nil => rfl
    | cons p rest ih =>
      rw [List.map_cons, List.map_cons, FileTree.fetch_file (hpaths p (List.mem_cons_self ..)),
        World.comeUpon, List.flatMap_cons, ih fun q hq => hpaths q (List.mem_cons_of_mem _ hq)]
      rfl
  exact hcome _ fun p hp => isFile_of_mem_filesOf h hp

theorem enumerated_mapped :
    (World.ofProject t trees rules).enumerated = (filesOf index).flatMap (classesAt t trees) := by
  have hrange : List.range (World.ofProject t trees rules).locators.length = [0] := rfl
  unfold World.enumerated World.listing
  rw [hrange, List.flatMap_singleton, supplies_mapped h]
  exact comeUpon_filesOf h

/-- The first class-like with a key in the files is that of the first scanned file with one. -/
theorem find?_enumerated_mapped (key : String) :
    (World.ofProject t trees rules).enumerated.find? (fun c => c.key == key)
      = (scanned.find? (declaresKey t trees key)).bind fun f =>
        findIn (sourceAt t trees f) key := by
  rw [enumerated_mapped h, ← h.indexes.find?_filesOf, List.find?_flatMap]
  induction filesOf index with
  | nil => rfl
  | cons p rest ih =>
    rw [List.findSome?_cons, List.find?_cons, ← findIn_sourceAt, ih, ← isSome_findIn]
    cases hp : findIn (sourceAt t trees p) key with
    | none => rfl
    | some c =>
      show some c = findIn (sourceAt t trees p) key
      exact hp.symm

/-! ## What lookups come to -/

theorem brings_mapped {key : String} {f : Path} {c d : ReflectedClass}
    (hbare : Identifier.IsBare key) (hf : scanned.find? (declaresKey t trees key) = some f)
    (hc : findIn (sourceAt t trees f) key = some c) {lookup : Lookup}
    (hd : lookup.brings (World.ofProject t trees rules) key = some d) : d = c := by
  have hnamed (identifier : String) (hid : (if Identifier.normalize identifier = key then
      ((World.ofProject t trees rules).named identifier).toOption.join else none) = some d) :
      d = c := by
    split at hid
    next hkey =>
      rw [named_mapped h hkey hbare hf hc] at hid
      exact (Option.some.inj hid).symm
    next => cases hid
  cases lookup with
  | reflect identifier => exact hnamed identifier hd
  | hasClass identifier => exact hnamed identifier hd
  | allClasses =>
    unfold Lookup.brings at hd
    rw [find?_enumerated_mapped h, hf, Option.bind_some, hc] at hd
    exact (Option.some.inj hd).symm

/-- An identifier names the class in the first file with its key, whatever was asked before. -/
theorem reflect_mapped {identifier key : String} {f : Path} {c : ReflectedClass}
    (hkey : Identifier.normalize identifier = key) (hempty : key ≠ "")
    (hbare : Identifier.IsBare key) (hf : scanned.find? (declaresKey t trees key) = some f)
    (hc : findIn (sourceAt t trees f) key = some c) (lookups : List Lookup) :
    outcome (reflect identifier) ((Store.ofProject t trees rules).afterLookups lookups)
      = .ok c := by
  have hnonempty : (Identifier.normalize identifier).isEmpty = false := by
    rw [hkey, ← Bool.not_eq_true, String.isEmpty_iff]
    exact hempty
  unfold Store.ofProject
  rw [outcome_afterLookups (World.isSteady_ofProject t trees rules)]
  cases hfirst : lookups.findSome?
      (Lookup.brings (World.ofProject t trees rules) (Identifier.normalize identifier)) with
  | some d =>
    obtain ⟨lookup, _, hd⟩ := List.exists_of_findSome?_eq_some hfirst
    rw [hkey] at hd
    rw [World.answerAfter_some hnonempty hfirst, brings_mapped h hbare hf hc hd]
  | none =>
    unfold World.answerAfter
    simp only
    rw [if_neg (Bool.eq_false_iff.mp hnonempty), hfirst, named_mapped h hkey hbare hf hc]
    rfl

end

section

variable {w : World} {s : Store}

/-- An identifier that names no class is not reflected when nothing was asked before. -/
theorem reflect_unnamed (hw : w.IsSteady) {identifier : String}
    (hempty : (Identifier.normalize identifier).isEmpty = false)
    (hnamed : w.named identifier = .ok none) :
    outcome (reflect identifier) (ofWorld w) = .error (.classNotFound identifier) := by
  have hnew : (ofWorld w).classes.lookup (Identifier.normalize identifier) = none := rfl
  rw [(reflect_over hw (over_ofWorld w) hempty).1, hnew, hnamed]
  rfl

/-- Keeping some classes gives as many, with the same keys. -/
theorem keepEach_keys (hs : s.Over w) (hfiled : s.Filed) (cs : List ReflectedClass) :
    ∃ ds, outcome (cs.mapM keep) s = .ok ds ∧ ds.map (·.key) = cs.map (·.key) := by
  induction cs generalizing s with
  | nil => exact ⟨[], by rw [List.mapM_nil]; rfl, rfl⟩
  | cons c cs ih =>
    obtain ⟨hkeep, hover, _⟩ := keep_over hs c
    obtain ⟨ds, hrest, hkeys⟩ := ih hover ((keep_maintains lasting_filed.toSteady c).holds hfiled)
    refine ⟨(s.classes.lookup c.key).getD c :: ds, ?_, ?_⟩
    · rw [List.mapM_cons, outcome_bind_ok hkeep, outcome_bind_ok hrest]
      rfl
    · rw [List.map_cons, List.map_cons, hkeys]
      refine congrArg (· :: cs.map _) ?_
      cases hkept : s.classes.lookup c.key with
      | none => rfl
      | some d => exact hfiled.classes _ _ hkept

/-- Listing sources that can be fetched gives an entry for each class-like, with its key. -/
theorem listSupplies_keys (hw : w.IsSteady) (hs : s.Over w) (hfiled : s.Filed)
    {supplies : List Supply}
    (hall : ∀ supply ∈ supplies, ∃ located, w.files.fetch none supply = .ok located) :
    ∃ ds, outcome (listSupplies supplies) s = .ok ds
      ∧ ds.map (·.key) = (w.comeUpon (supplies.map (w.files.fetch none))).map (·.key) := by
  induction supplies generalizing s with
  | nil => exact ⟨[], rfl, rfl⟩
  | cons supply rest ih =>
    obtain ⟨located, hlocated⟩ := hall supply (List.mem_cons_self ..)
    obtain ⟨hfetch, hfetched, _⟩ := locating_over hw (World.fetch_agree none supply)
      (World.fetch_proceeds none supply) hs
    have hfiles : outcome (World.fetch none supply) w = w.files.fetch none supply := rfl
    rw [hfiles, hlocated] at hfetch
    have hfiled' :=
      (locating_maintains lasting_filed.toSteady (World.fetch none supply)).holds hfiled
    obtain ⟨hparse, hparsed, _⟩ := parse_over hfetched located
    have hfiled'' := (parse_maintains lasting_filed.toSteady located).holds hfiled'
    obtain ⟨ds, hkeep, hkeys⟩ := keepEach_keys hparsed hfiled''
      (World.classesIn (w.trees.parse located.text located.origin))
    rw [← keepAll_eq] at hkeep
    have hkept := (keepEach_over hparsed
      (World.classesIn (w.trees.parse located.text located.origin))).2.1
    rw [← keepAll_eq] at hkept
    obtain ⟨more, hrest, hmore⟩ := ih hkept
      ((keepAll_maintains lasting_filed.toSteady _).holds hfiled'')
      fun supply hsupply => hall supply (List.mem_cons_of_mem _ hsupply)
    refine ⟨ds ++ more, ?_, ?_⟩
    · rw [listSupplies, outcome_bind_ok hfetch, outcome_bind_ok hparse, outcome_bind_ok hkeep,
        outcome_bind_ok hrest]
      rfl
    · rw [List.map_cons, hlocated, World.comeUpon, List.map_append, List.map_append, hkeys, hmore]

end

theorem filed_afterLookups (w : World) (lookups : List Lookup) :
    ((ofWorld w).afterLookups lookups).Filed := by
  have h := lasting_filed.afterEvents (filed_ofWorld w) ((lookups.map Lookup.call).map Event.call)
  unfold Store.afterEvents at h
  rw [List.foldl_map] at h
  exact h

section

variable {rules : AutoloadRules} {t : FileTree} {trees : GivenTrees} {scanned : List Path}
  {index : ClassIndex} (h : rules.Maps t trees scanned index)
include h

/-- The list of all classes has the keys of the class-likes in the files of the map. -/
theorem allClasses_keys {s : Store} (hs : s.Over (World.ofProject t trees rules))
    (hfiled : s.Filed) :
    ∃ cs, outcome allClasses s = .ok cs
      ∧ cs.map (·.key) = ((filesOf index).flatMap (classesAt t trees)).map (·.key) := by
  have hw := World.isSteady_ofProject t trees rules
  have hpositions : outcome (Query.locating World.positions) s = .ok [0] := by
    show Except.ok (List.range s.world.locators.length) = _
    rw [hs.world.length]
    rfl
  obtain ⟨hsupplies, hasked, _⟩ :=
    locating_over hw (World.supplies_agree 0) (World.supplies_proceeds 0) hs
  rw [supplies_mapped h] at hsupplies
  have hfetched (supply : Supply) (hsupply : supply ∈ (filesOf index).map Supply.file) :
      ∃ located, t.fetch none supply = .ok located := by
    obtain ⟨p, hp, rfl⟩ := List.mem_map.mp hsupply
    exact ⟨_, FileTree.fetch_file (isFile_of_mem_filesOf h hp) none⟩
  obtain ⟨cs, hcs, hkeys⟩ := listSupplies_keys hw hasked
    ((locating_maintains lasting_filed.toSteady _).holds hfiled) hfetched
  refine ⟨cs, ?_, hkeys.trans (congrArg _ (comeUpon_filesOf h))⟩
  unfold allClasses
  rw [outcome_bind_ok hpositions]
  show outcome (listLocators [0]) s = _
  rw [listLocators, outcome_bind_ok hsupplies, outcome_bind_ok hcs]
  show Except.ok (cs ++ []) = _
  rw [List.append_nil]

/-- A class that is listed is the one that a lookup comes to, whatever was asked before. -/
theorem allClasses_mapped {lookups : List Lookup} {cs : List ReflectedClass} {c d : ReflectedClass}
    {f : Path}
    (hcs : outcome allClasses ((Store.ofProject t trees rules).afterLookups lookups) = .ok cs)
    (hc : c ∈ cs) (hempty : c.key ≠ "") (hbare : Identifier.IsBare c.key)
    (hf : scanned.find? (declaresKey t trees c.key) = some f)
    (hd : findIn (sourceAt t trees f) c.key = some d) : c = d := by
  have hw := World.isSteady_ofProject t trees rules
  obtain ⟨hover, hkeys⟩ := (over_ofWorld (World.ofProject t trees rules)).afterLookups hw lookups
  have hfiled := filed_afterLookups (World.ofProject t trees rules) lookups
  have hkey : c.key.isEmpty = false := by
    rw [← Bool.not_eq_true, String.isEmpty_iff]
    exact hempty
  -- it is what is kept under its key then: the first that something came upon
  have hkept := Inquiry.run_handsOut .allClasses _ cs hfiled hcs c hc
  have hafter := (Lookup.allClasses.run_over hw hover).2 c.key hkey
  rw [hkeys c.key hkey] at hafter
  have hfirst : (lookups.findSome? (Lookup.brings (World.ofProject t trees rules) c.key)).or
      (Lookup.allClasses.brings (World.ofProject t trees rules) c.key) = some c := by
    refine hafter.symm.trans (Eq.trans ?_ hkept)
    exact congrArg (fun s : Store => s.classes.lookup c.key)
      (after_answer Reflector.allClasses Answer.classes _)
  cases hlookups : lookups.findSome? (Lookup.brings (World.ofProject t trees rules) c.key) with
  | some e =>
    obtain ⟨lookup, _, he⟩ := List.exists_of_findSome?_eq_some hlookups
    rw [hlookups, Option.some_or] at hfirst
    rw [← Option.some.inj hfirst]
    exact brings_mapped h hbare hf hd he
  | none =>
    rw [hlookups, Option.none_or] at hfirst
    exact brings_mapped h hbare hf hd hfirst

end

/-- Lookups by way of a class map of files that can be read, and what they come to after any
others. -/
theorem Store.classMap_agrees {root : Path} {t : FileTree} {trees : GivenTrees}
    {newer older : List TextRule} {entries : List String} {rules : AutoloadRules}
    (hrules : rules = ofTexts root newer older entries)
    (hfiles : ∀ p ∈ AutoloadRules.scanned t root entries, t.isFile p = true) :
    (∀ e ∈ entries, (filesUnder t (root.join (Path.ofString e))).Pairwise
        fun p q => q.before p = false)
    ∧ (∀ p ∈ AutoloadRules.scanned t root entries, ∀ c ∈ classesAt t trees p,
        ∀ spelling, Identifier.Spells c.name spelling →
        ∃ f, (AutoloadRules.scanned t root entries).find? (declaresKey t trees c.key) = some f
          ∧ (∀ lookups, outcome (Query.locating (World.findFile 0 spelling))
              ((Store.ofProject t trees rules).afterLookups lookups) = .ok (some f))
          ∧ (c.key ≠ "" → Identifier.IsBare c.key →
            ∃ d, (classesAt t trees f).find? (fun d => d.key == c.key) = some d
              ∧ ∀ lookups, outcome (reflect spelling)
                ((Store.ofProject t trees rules).afterLookups lookups) = .ok d))
    ∧ ∃ files : List Path,
        (∀ lookups, outcome (Query.locating (World.supplies 0))
          ((Store.ofProject t trees rules).afterLookups lookups) = .ok (files.map .file))
        ∧ (∀ f, f ∈ files ↔
          ∃ key, (AutoloadRules.scanned t root entries).find? (declaresKey t trees key) = some f)
        ∧ (files.Pairwise fun p q => t.textAt p ≠ t.textAt q)
        ∧ ∀ lookups, ∃ cs,
          outcome allClasses ((Store.ofProject t trees rules).afterLookups lookups) = .ok cs
          ∧ cs.map (·.key) = (files.flatMap (classesAt t trees)).map (·.key)
          ∧ ∀ c ∈ cs, c.key ≠ "" → Identifier.IsBare c.key → ∀ others,
            outcome (reflect c.name) ((Store.ofProject t trees rules).afterLookups others)
              = .ok c := by
  subst hrules
  obtain ⟨index, hmade, hindexes⟩ := @index_scanned t trees root newer older entries hfiles
  have h : (ofTexts root newer older entries).Maps t trees _ index := ⟨hmade, hindexes, hfiles⟩
  have hw := World.isSteady_ofProject t trees (ofTexts root newer older entries)
  have hover := Store.over_ofProject t trees (ofTexts root newer older entries)
  refine ⟨fun e _ => filesUnder_ordered t _, fun p hp c hc spelling hspelling => ?_,
    filesOf index, fun lookups => ?_, h.indexes.mem_filesOf_iff, ?_, fun lookups => ?_⟩
  · obtain ⟨f, d, hf, hd⟩ := exists_first hp hc
    obtain ⟨hkey, hbehind⟩ := hspelling.normalize
    refine ⟨f, hf, fun lookups => ?_, fun hempty hbare => ⟨d, ?_, ?_⟩⟩
    · rw [(locating_over hw (World.findFile_agree 0 spelling) (World.findFile_proceeds 0 spelling)
        (hover lookups)).1]
      exact findFile_mapped h (hbehind.symm ▸ hf)
    · rw [← findIn_sourceAt]
      exact hd
    · exact reflect_mapped h hkey hempty hbare hf hd
  · rw [(locating_over hw (World.supplies_agree 0) (World.supplies_proceeds 0) (hover lookups)).1]
    exact supplies_mapped h
  · refine h.indexes.filesOf_apart.imp fun {p q} hapart hsame => ?_
    obtain ⟨key, hkey⟩ := hapart
    exact hkey (declaresKey_congr trees hsame key)
  · obtain ⟨cs, hcs, hkeys⟩ := allClasses_keys h (hover lookups) (filed_afterLookups _ lookups)
    refine ⟨cs, hcs, hkeys, fun c hc hempty hbare others => ?_⟩
    -- some class-like of the files has the key
    obtain ⟨e, he, hkey⟩ := List.mem_map.mp (hkeys ▸ List.mem_map_of_mem hc)
    obtain ⟨p, hp, hep⟩ := List.mem_flatMap.mp he
    obtain ⟨f, d, hf, hd⟩ := exists_first hp hep
    rw [hkey, h.indexes.find?_filesOf] at hf
    rw [hkey] at hd
    obtain rfl := allClasses_mapped h hcs hc hempty hbare hf hd
    exact reflect_mapped h rfl hempty hbare hf hd others

/-! ## Two files with the same classes -/

/-- A project with a text in files of two directories, and a file that a rule leads to. -/
def doubledTree : FileTree :=
  ⟨[(["lib", "a.php"], inheritingText.toList.flatMap String.utf8EncodeChar),
    (["more", "b.php"], inheritingText.toList.flatMap String.utf8EncodeChar),
    (["src", "b.php"], [])], [["lib"], ["more"], ["src"]], []⟩

/-- All classes are in `src`, and the two directories are mapped. -/
def doubledRules : AutoloadRules := ofTexts Path.here [("", ["src"])] [] ["lib", "more"]

theorem all_inheritingText (origin : String) :
    ClassLike.all (inheritingWorld.trees.parse inheritingText origin)
      = [inherited.classLike, inheriting.classLike] := by
  have hclasses := congrArg (List.map ReflectedClass.classLike) classes_inheritingWorld
  have hsources : inheritingWorld.sources = [inherited.source] := rfl
  rw [World.classes, hsources, List.flatMap_singleton, World.classesIn, List.map_map] at hclasses
  rw [← List.map_id (ClassLike.all _)]
  exact hclasses

theorem classesAt_doubled : ∃ source, classesAt doubledTree inheritingWorld.trees
    ⟨"", ["lib", "a.php"]⟩ = [⟨inherited.classLike, source⟩, ⟨inheriting.classLike, source⟩] := by
  have htext : doubledTree.textAt ⟨"", ["lib", "a.php"]⟩ = inheritingText := by decide +kernel
  have hall : ClassLike.all (sourceAt doubledTree inheritingWorld.trees ⟨"", ["lib", "a.php"]⟩)
      = [inherited.classLike, inheriting.classLike] := by
    unfold sourceAt
    rw [htext]
    exact all_inheritingText _
  refine ⟨sourceAt doubledTree inheritingWorld.trees ⟨"", ["lib", "a.php"]⟩, ?_⟩
  unfold classesAt World.classesIn
  rw [hall, List.map_cons, List.map_cons, List.map_nil]

/-- A class in both mapped files is found in the first of them, however it is spelled, and not by
the rule. -/
theorem classMap_agrees_doubled :
    (∀ p ∈ AutoloadRules.scanned doubledTree Path.here ["lib", "more"], doubledTree.isFile p = true)
      ∧ doubledTree.isFile ⟨"", ["src", "b.php"]⟩ = true
      ∧ ∀ lookups, outcome (Query.locating (World.findFile 0 "\\b"))
          ((Store.ofProject doubledTree inheritingWorld.trees doubledRules).afterLookups lookups)
            = .ok (some ⟨"", ["lib", "a.php"]⟩)
        ∧ ∃ d, d.name = "B" ∧ outcome (reflect "\\b")
          ((Store.ofProject doubledTree inheritingWorld.trees doubledRules).afterLookups lookups)
            = .ok d := by
  have hfiles : ∀ p ∈ AutoloadRules.scanned doubledTree Path.here ["lib", "more"],
      doubledTree.isFile p = true := by decide +kernel
  have hscanned : AutoloadRules.scanned doubledTree Path.here ["lib", "more"]
      = [⟨"", ["lib", "a.php"]⟩, ⟨"", ["more", "b.php"]⟩] := by decide +kernel
  obtain ⟨source, hclasses⟩ := classesAt_doubled
  obtain ⟨c, hc⟩ : ∃ c : ReflectedClass, c = ⟨inheriting.classLike, source⟩ := ⟨_, rfl⟩
  have hname : c.name = "B" := by
    rw [hc]
    rfl
  have hkey : c.key = "b" := by
    rw [hc]
    show inheriting.classLike.key = "b"
    decide +kernel
  have hmem : c ∈ classesAt doubledTree inheritingWorld.trees ⟨"", ["lib", "a.php"]⟩ := by
    rw [hclasses, hc]
    exact List.mem_cons_of_mem _ (List.mem_cons_self ..)
  have hspells : Identifier.Spells c.name "\\b" := by
    have hspelled : Identifier.spelled 1 "b" = "\\b" := by decide +kernel
    have hletters : Identifier.SameLetters "b" "B" := by
      unfold Identifier.SameLetters
      decide +kernel
    have hbare : Identifier.IsBare "B" := fun c hc => by
      obtain rfl := Option.some.inj hc
      decide
    rw [hname, ← hspelled]
    exact .rooted 1 hletters hbare
  have hkeybare : Identifier.IsBare "b" := fun c hc => by
    obtain rfl := Option.some.inj hc
    decide
  obtain ⟨_, hlookups, _⟩ := @Store.classMap_agrees Path.here doubledTree inheritingWorld.trees
    [("", ["src"])] [] ["lib", "more"] doubledRules rfl hfiles
  obtain ⟨f, hf, hfound, hreflected⟩ :=
    hlookups _ (hscanned ▸ List.mem_cons_self ..) c hmem _ hspells
  have hdeclares : declaresKey doubledTree inheritingWorld.trees c.key ⟨"", ["lib", "a.php"]⟩
      = true := by
    rw [← isSome_findIn, findIn_sourceAt, List.find?_isSome]
    exact ⟨_, hmem, beq_self_eq_true _⟩
  rw [hscanned, List.find?_cons_of_pos hdeclares] at hf
  obtain rfl := Option.some.inj hf
  rw [hkey] at hreflected
  obtain ⟨d, hd, hanswer⟩ := hreflected (by decide) hkeybare
  refine ⟨hfiles, by decide +kernel, fun lookups => ⟨hfound lookups, d, ?_, hanswer lookups⟩⟩
  have hother : (ReflectedClass.key ⟨inherited.classLike, source⟩ == "b") = false := by
    show (inherited.classLike.key == "b") = false
    decide +kernel
  rw [hclasses, ← hc] at hd
  simp only [List.find?_cons, hother, hkey, beq_self_eq_true, Option.some.injEq] at hd
  rw [← hd, hname]

/-! ## Names that are not reflected -/

/-- A text with a class whose name is left out, and with names that begin with a blank. -/
def oddText : String :=
  "<?php class \x7b\x7d class \u3000X \x7b\x7d namespace \u3000 \x7b class \u3000Y \x7b\x7d \x7d"

/-- A declaration of a class with an empty body. -/
def emptyClass (start nameStart nameStop : Nat) : Node :=
  ⟨"class_declaration", start, nameStop + 3, none, true, false,
    [⟨"class", start, start + 5, none, false, false, []⟩,
      ⟨"name", nameStart, nameStop, some "name", true, nameStart == nameStop, []⟩,
      ⟨"declaration_list", nameStop + 1, nameStop + 3, some "body", true, false,
        [⟨"\x7b", nameStop + 1, nameStop + 2, none, false, false, []⟩,
          ⟨"\x7d", nameStop + 2, nameStop + 3, none, false, false, []⟩]⟩]⟩

def oddTag : Node := ⟨"php_tag", 0, 5, none, true, false, []⟩

/-- The first brace of the namespace. -/
def oddBrace : Node := ⟨"\x7b", 43, 44, none, false, false, []⟩

/-- The namespace that is named by a blank. -/
def oddNamespace : Node :=
  ⟨"namespace_definition", 29, 60, none, true, false,
    [⟨"namespace", 29, 38, none, false, false, []⟩,
      ⟨"namespace_name", 39, 42, some "name", true, false,
        [⟨"name", 39, 42, none, true, false, []⟩]⟩,
      ⟨"compound_statement", 43, 60, some "body", true, false,
        [oddBrace, emptyClass 45 51 55, ⟨"\x7d", 59, 60, none, false, false, []⟩]⟩]⟩

/-- The syntax tree of the text. -/
def oddRoot : Node :=
  ⟨"program", 0, 60, none, true, false,
    [oddTag, emptyClass 6 11 11, emptyClass 15 21 25, oddNamespace]⟩

/-- The class-likes of the text, in source order. -/
def oddClassLikes : List ClassLike :=
  [⟨⟨emptyClass 6 11 11, [oddTag]⟩, .classKind, "", NameScope.empty⟩,
    ⟨⟨emptyClass 15 21 25, [emptyClass 6 11 11, oddTag]⟩, .classKind, "\u3000X", NameScope.empty⟩,
    ⟨⟨emptyClass 45 51 55, [oddBrace]⟩, .classKind, "\u3000Y", ⟨"\u3000", []⟩⟩]

theorem all_oddText (origin : String) :
    ClassLike.all ⟨Source.ofString oddText, origin, oddRoot⟩ = oddClassLikes := by
  have hbody : ClassLike.found (Source.ofString oddText).text []
      [oddBrace, emptyClass 45 51 55, ⟨"\x7d", 59, 60, none, false, false, []⟩] ⟨"\u3000", []⟩
      = [⟨⟨emptyClass 45 51 55, [oddBrace]⟩, .classKind, "\u3000Y", ⟨"\u3000", []⟩⟩] := by
    rw [ClassLike.found_cons, ClassLike.found_cons, ClassLike.found_cons, ClassLike.found_nil]
    rfl
  have hnamespace (before : List Node) (s : NameScope) :
      ClassLike.foundIn (Source.ofString oddText).text before oddNamespace s
        = [⟨⟨emptyClass 45 51 55, [oddBrace]⟩, .classKind, "\u3000Y", ⟨"\u3000", []⟩⟩] := by
    rw [← hbody]
    rfl
  show ClassLike.found (Source.ofString oddText).text []
    [oddTag, emptyClass 6 11 11, emptyClass 15 21 25, oddNamespace] NameScope.empty = _
  rw [ClassLike.found_cons, ClassLike.found_cons, ClassLike.found_cons, ClassLike.found_cons,
    ClassLike.found_nil, hnamespace]
  rfl

/-- A project with this text in a mapped file. -/
def oddTree : FileTree :=
  ⟨[(["lib", "odd.php"], oddText.toList.flatMap String.utf8EncodeChar)], [["lib"]], []⟩

/-- Its rules, of which there are none but the class map. -/
def oddRules : AutoloadRules := ofTexts Path.here [] [] ["lib"]

/-- The file. -/
def oddPath : Path := ⟨"", ["lib", "odd.php"]⟩

/-- The syntax tree of its text. -/
def oddTrees : GivenTrees := [(oddText, oddRoot)]

theorem scanned_odd : AutoloadRules.scanned oddTree Path.here ["lib"] = [oddPath] := by
  decide +kernel

theorem isFile_odd : ∀ p ∈ AutoloadRules.scanned oddTree Path.here ["lib"],
    oddTree.isFile p = true := by decide +kernel

theorem exists_oddIndex : ∃ index, oddRules.Maps oddTree oddTrees [oddPath] index := by
  obtain ⟨index, hmade, hindexes⟩ :=
    @index_scanned oddTree oddTrees Path.here [] [] ["lib"] isFile_odd
  rw [scanned_odd] at hindexes
  exact ⟨index, hmade, hindexes, scanned_odd ▸ isFile_odd⟩

theorem all_odd : ClassLike.all (sourceAt oddTree oddTrees oddPath) = oddClassLikes := by
  have htext : oddTree.textAt oddPath = oddText := by decide +kernel
  unfold sourceAt
  rw [htext]
  exact all_oddText _

theorem declaresKey_odd (key : String) : declaresKey oddTree oddTrees key oddPath
    = oddClassLikes.any fun c => c.key == key := by
  unfold declaresKey
  rw [all_odd]

theorem range_odd : List.range (World.ofProject oddTree oddTrees oddRules).locators.length = [0] :=
  rfl

/-- What is left of this identifier has another key, and under that the class map has the file. -/
theorem named_rooted :
    (World.ofProject oddTree oddTrees oddRules).named "\\\u3000X" = .ok none := by
  obtain ⟨index, h⟩ := exists_oddIndex
  have htrimmed : Identifier.trimmed "\\\u3000X" = "\u3000X" := by decide +kernel
  have hkey : Identifier.normalize (Identifier.dropLeading "\u3000X") = "x" := by decide +kernel
  have hfile : [oddPath].find? (declaresKey oddTree oddTrees
      (Identifier.normalize (Identifier.dropLeading "\u3000X"))) = some oddPath := by
    rw [hkey, List.find?_singleton, declaresKey_odd]
    decide +kernel
  have hnone : findIn (sourceAt oddTree oddTrees oddPath) (Identifier.normalize "\\\u3000X")
      = none := by
    rw [← Option.not_isSome_iff_eq_none, isSome_findIn, declaresKey_odd]
    decide +kernel
  unfold World.named
  rw [htrimmed, range_odd, World.searched_single (locateAt_mapped h hfile), Option.bind_some]
  exact congrArg Except.ok hnone

/-- What is left of this identifier has another key, and under that the class map has nothing. -/
theorem named_blank :
    (World.ofProject oddTree oddTrees oddRules).named "\u3000\\\u3000Y" = .ok none := by
  obtain ⟨index, h⟩ := exists_oddIndex
  have htrimmed : Identifier.trimmed "\u3000\\\u3000Y" = "\u3000Y" := by decide +kernel
  have hkey : Identifier.normalize (Identifier.dropLeading "\u3000Y") = "y" := by decide +kernel
  have hnone : [oddPath].find? (declaresKey oddTree oddTrees
      (Identifier.normalize (Identifier.dropLeading "\u3000Y"))) = none := by
    rw [hkey, List.find?_singleton, declaresKey_odd]
    decide +kernel
  have hrules : oddRules.findByRules oddTree (Identifier.dropLeading "\u3000Y") = .ok none := by
    have hnewer : oddRules.psr4 = [] := List.mergeSort_nil
    have holder : oddRules.psr0 = [] := List.mergeSort_nil
    unfold findByRules
    rw [hnewer, holder]
    rfl
  unfold World.named
  rw [htrimmed, range_odd, World.searched_single (locateAt_unmapped h hnone hrules),
    Option.bind_none]

/-- The class-like without a name is listed. -/
theorem allClasses_odd :
    ∃ cs, outcome allClasses (Store.ofProject oddTree oddTrees oddRules) = .ok cs
      ∧ ∃ c ∈ cs, c.key = "" := by
  obtain ⟨index, h⟩ := exists_oddIndex
  have hunnamed : declaresKey oddTree oddTrees "" oddPath = true := by
    rw [declaresKey_odd]
    decide +kernel
  have hlisted : oddPath ∈ filesOf index :=
    (h.indexes.mem_filesOf_iff _).mpr ⟨"", List.find?_cons_of_pos hunnamed⟩
  rw [← isSome_findIn, findIn_sourceAt, List.find?_isSome] at hunnamed
  obtain ⟨c, hc, hempty⟩ := hunnamed
  have hstart : (Store.ofProject oddTree oddTrees oddRules).afterLookups []
      = Store.ofProject oddTree oddTrees oddRules := rfl
  have hover := Store.over_ofProject oddTree oddTrees oddRules []
  rw [hstart] at hover
  obtain ⟨cs, hcs, hkeys⟩ := allClasses_keys h hover (filed_ofWorld _)
  have hkey : c.key ∈ cs.map (·.key) := by
    rw [hkeys]
    exact List.mem_map_of_mem (List.mem_flatMap.mpr ⟨_, hlisted, hc⟩)
  obtain ⟨d, hd, hsame⟩ := List.mem_map.mp hkey
  exact ⟨cs, hcs, d, hd, hsame.trans (eq_of_beq hempty)⟩

/-- Not all class-likes of a mapped file are reflected by their names: not the one without, which
is listed all the same, not one that begins with a blank if a backslash stands before it, and not
one of a namespace of blanks whose own name begins with a blank. -/
theorem oddNames_missed :
    (∀ p ∈ AutoloadRules.scanned oddTree Path.here ["lib"], oddTree.isFile p = true)
      ∧ oddPath ∈ AutoloadRules.scanned oddTree Path.here ["lib"]
      ∧ (classesAt oddTree oddTrees oddPath).map (·.name) = ["", "\u3000X", "\u3000\\\u3000Y"]
      ∧ (∃ cs, outcome allClasses (Store.ofProject oddTree oddTrees oddRules) = .ok cs
        ∧ ∃ c ∈ cs, c.key = "")
      ∧ outcome (reflect "") (Store.ofProject oddTree oddTrees oddRules)
        = .error (.emptyIdentifier "")
      ∧ outcome (reflect "\\\u3000X") (Store.ofProject oddTree oddTrees oddRules)
        = .error (.classNotFound "\\\u3000X")
      ∧ outcome (reflect "\u3000\\\u3000Y") (Store.ofProject oddTree oddTrees oddRules)
        = .error (.classNotFound "\u3000\\\u3000Y") := by
  have hw := World.isSteady_ofProject oddTree oddTrees oddRules
  have hnames : (classesAt oddTree oddTrees oddPath).map (·.name)
      = ["", "\u3000X", "\u3000\\\u3000Y"] := by
    unfold classesAt World.classesIn
    rw [all_odd]
    decide +kernel
  have hmem : oddPath ∈ AutoloadRules.scanned oddTree Path.here ["lib"] := by
    rw [scanned_odd]
    exact List.mem_singleton_self _
  have hempty : (Identifier.normalize "").isEmpty = true := by decide +kernel
  have hrooted : (Identifier.normalize "\\\u3000X").isEmpty = false := by decide +kernel
  have hblank : (Identifier.normalize "\u3000\\\u3000Y").isEmpty = false := by decide +kernel
  exact ⟨isFile_odd, hmem, hnames, allClasses_odd, (reflect_empty hempty).1,
    reflect_unnamed hw hrooted named_rooted, reflect_unnamed hw hblank named_blank⟩

end StaticReflection
