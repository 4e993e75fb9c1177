import StaticReflection.Proofs.Declaration.NameScope
import StaticReflection.Proofs.Reflection.History
import StaticReflection.Proofs.Reflection.Lineage

/-!
# Ancestors in a fixed world

Over sources that do not change every declared class has one lineage, and the names of
its ancestors are those on it:

> `Store.parentNames_fate`: asking for the names of a class's ancestors comes to the names
> on its lineage, to the failure of the parent that cannot be found, or to a failure for
> its circular inheritance, as the fate of the lineage says. Without traits, asking for a
> property fails for circular inheritance exactly if the lineage is circular and all its
> classes, whose declarations can be read, lack the property.

A class that declares a property without a name has no list of properties, so looking for
a property fails there and does not go on (`circularParent_namelessProperty`).
-/

namespace StaticReflection

open Folding Outcome Reflector Store

namespace World

variable {w : World}

theorem key_mem_knownKeys_of_parent? {c d : ReflectedClass} (h : w.parent? c = .ok (some d)) :
    d.key ∈ w.knownKeys := key_mem_knownKeys (has_of_parent? (K := []) h).mem_classes

/-- A parent that is not reflected is declared nowhere. -/
theorem isNotFound_of_parent? {c : ReflectedClass} {f : Failure} (h : w.parent? c = .error f) :
    f.isNotFound = true := by
  unfold parent? at h
  split at h
  · cases h
  next name _ =>
    cases hans : w.answer name with
    | ok d => rw [hans] at h; cases h
    | error g => rw [hans] at h; cases h; exact isNotFound_of_answer hans

/-- The properties of a class without traits are those of its declaration. -/
theorem gathers_of_noTraits {c : ReflectedClass} (h : c.traitNames = []) :
    w.Gathers c c.ownDeclarations := by
  refine ⟨1, fun m hm => ?_⟩
  obtain ⟨m, rfl⟩ : ∃ k, m = k + 1 := ⟨m - 1, by omega⟩
  rw [gathered, h]
  cases c.ownDeclarations <;> rfl

end World

/-! ## What reading declarations fails with -/

theorem PropertyDeclaration.named_failsOnly (d : PropertyDeclaration) :
    (named d).FailsOnly fun f => f.kind? == some .invalidNode :=
  failsOnly_ite (failsOnly_error rfl) failsOnly_ok

theorem PropertyDeclaration.ofNode_failsOnly (p : ParsedSource) (s : Sited) :
    (ofNode p s).FailsOnly fun f => f.kind? == some .invalidNode := by
  have hparameter : (ofParameter p s).FailsOnly fun f => f.kind? == some .invalidNode := by
    unfold ofParameter
    split
    · exact failsOnly_error rfl
    · exact named_failsOnly _
  refine failsOnly_ite (failsOnly_error rfl) (failsOnly_ite ?_ ?_)
  · exact hparameter.bind fun _ => failsOnly_ok
  · exact failsOnly_mapM named_failsOnly _

theorem ReflectedClass.ownDeclarations_failsOnly (c : ReflectedClass) :
    c.ownDeclarations.FailsOnly fun f => f.kind? == some .invalidNode := by
  refine failsOnly_foldlM (fun acc n => ?_) c.propertyNodes []
  exact (PropertyDeclaration.ofNode_failsOnly c.source n).bind fun _ => failsOnly_ok

/-! ## Climbs in a fixed world -/

section

variable {w : World} {L : List ConstantKey} {K : List String}
variable {c : ReflectedClass} {cs : List ReflectedClass} {fate : Fate}

theorem World.find?_of_mem_lineage (h : Lineage w.parent? [] c cs fate)
    (hc : w.find? c.key = some c) : ∀ d ∈ cs, w.find? d.key = some d :=
  h.forall_mem hc fun _ _ _ hnext => (World.has_of_parent? (K := []) hnext).1

theorem climbFrom_comes (hw : w.IsStatic) (h : Lineage w.parent? [] c cs fate)
    (hc : w.find? c.key = some c) {α : Type} {visit : α → ReflectedClass → Query (Bool × α)}
    {see : α → ReflectedClass → Outcome (Bool × α)}
    (hvisit : ∀ a, ∀ d ∈ cs, Comes (Within w L K) (visit a d) (see a d) (Within w L K)) (a : α) :
    Comes (Within w L K) (climbFrom c a visit)
      (survey see (fun b => fate.close c.name b) cs a) (Within w L K) := by
  refine .get_bind fun s hs => Comes.run ?_ hs
  refine h.climb_comes List.not_mem_nil hvisit (fun d _ => parent_comes hw d) ?_ a
  have hkeys (d : ReflectedClass) (hd : d ∈ cs) : d.key ∈ w.knownKeys :=
    World.key_mem_knownKeys (World.mem_classes_of_find? (World.find?_of_mem_lineage h hc d hd))
  calc cs.length ≤ unused w.knownKeys [] := h.length_le List.not_mem_nil hkeys
    _ ≤ w.knownKeys.length := unused_le_length
    _ ≤ s.depth := Nat.le_of_lt hs.coherent.keys_lt_depth

theorem parentNames_comes (hw : w.IsStatic) (h : Lineage w.parent? [] c cs fate)
    (hc : w.find? c.key = some c) :
    Comes (Within w L K) (parentNames c) (fate.close c.name ((cs.map (·.name)).drop 1))
      (Within w L K) := by
  have hnames : cs.foldl (fun acc d => acc ++ [d.name]) [] = cs.map (·.name) := by
    rw [List.foldl_append_eq_append, List.nil_append, ← List.flatMap_def, ← List.map_eq_flatMap]
  have hvisit (acc : List String) (d : ReflectedClass) (_ : d ∈ cs) :
      Comes (Within w L K) (return (true, acc ++ [d.name])) (.ok (true, acc ++ [d.name]))
        (Within w L K) := .pure
  have hclimb := climbFrom_comes hw h hc hvisit []
  rw [survey_all, hnames] at hclimb
  cases fate with
  | rootless => exact hclimb.bind_ok .pure
  | missing f => exact hclimb.bind_error
  | circular => exact hclimb.bind_error

/-- The property of a name that a class declares itself. -/
def ReflectedClass.ownProperty? (c : ReflectedClass) (name : String) : Outcome (Option Property) :=
  do return ((← c.ownDeclarations).map (Property.ofClass c)).find? fun p => p.name == name

theorem ReflectedClass.ownProperty?_eq_none_iff {c : ReflectedClass} {name : String} :
    c.ownProperty? name = .ok none
      ↔ ∃ ds, c.ownDeclarations = .ok ds ∧ declares ds name = false := by
  unfold ownProperty?
  cases c.ownDeclarations with
  | error f => exact ⟨fun h => by (cases h), fun ⟨_, h, _⟩ => by (cases h)⟩
  | ok ds =>
    have hnone : (ds.map (Property.ofClass c)).find? (fun p => p.name == name) = none
        ↔ declares ds name = false := by
      rw [List.find?_map, Option.map_eq_none_iff, List.find?_eq_none, declares, List.any_eq_false]
      rfl
    constructor
    · intro h
      exact ⟨ds, rfl, hnone.mp (Except.ok.inj h)⟩
    · rintro ⟨_, hds, h⟩
      cases hds
      exact congrArg Except.ok (hnone.mpr h)

/-- Without traits a property is looked for in the declarations along the lineage. -/
theorem property_comes (hw : w.IsStatic) (h : Lineage w.parent? [] c cs fate)
    (hc : w.find? c.key = some c) (htraits : ∀ d ∈ w.classes, d.traitNames = [])
    (written : String) :
    Comes (Within w L K) (property c written)
      (survey (lookFor fun d => d.ownProperty? (PropertyDeclaration.bareName written))
          (fun b => fate.close c.name b) cs none
        >>= fun found => match found with
          | some p => .ok p
          | none => .error (.propertyNotFound c.name (PropertyDeclaration.bareName written)))
      (Within w L K) := by
  refine (climbFrom_comes hw h hc (fun before d hd => ?_) none).bind fun found _ => ?_
  · have hfind := World.find?_of_mem_lineage h hc d hd
    have hgathers := World.gathers_of_noTraits (w := w)
      (htraits d (World.mem_classes_of_find? hfind))
    have himmediate := immediateProperties_comes (L := L) (K := K) hw hfind hgathers
    have hsee : lookFor (fun d => d.ownProperty? (PropertyDeclaration.bareName written)) before d
        = (d.ownDeclarations >>= fun ds => .ok (ds.map (Property.ofClass d))) >>= fun ps =>
            let here := ps.find? fun p => p.name == PropertyDeclaration.bareName written
            .ok (here.isNone, here) := by
      unfold lookFor ReflectedClass.ownProperty?
      simp only
      cases d.ownDeclarations <;> rfl
    rw [hsee]
    exact himmediate.bind fun _ _ => .pure
  · cases found with
    | none => exact .throw
    | some p => exact .pure

theorem ReflectedClass.ownProperty?_failsOnly (c : ReflectedClass) (name : String) :
    (c.ownProperty? name).FailsOnly fun f => !(f.kind? == some .circularReference) := by
  refine (c.ownDeclarations_failsOnly.mono fun f hf => ?_).bind fun _ => failsOnly_ok
  rw [eq_of_beq hf]
  rfl

/-- A lineage closes with the failure of a circle exactly if it is circular. -/
theorem close_circular_iff (h : Lineage w.parent? [] c cs fate) {α : Type} (b : α)
    (origin : String) :
    (∃ f, fate.close origin b = .error f ∧ (f.kind? == some .circularReference) = true)
      ↔ fate = .circular := by
  constructor
  · rintro ⟨f, hf, hkind⟩
    cases hfate : fate with
    | rootless => rw [hfate] at hf; cases hf
    | missing g =>
      -- a parent that cannot be found fails in another way
      rw [hfate] at hf
      cases hf
      obtain ⟨d, _, hnext⟩ := h.exists_missing hfate
      have hnot := World.isNotFound_of_parent? hnext
      rw [Failure.isNotFound, eq_of_beq hkind] at hnot
      cases hnot
    | circular => rfl
  · rintro rfl
    exact ⟨_, rfl, rfl⟩

/-- Without traits looking for a property fails with the failure of a circle exactly if
parents go round in a circle and no class on the way has the property. -/
theorem property_circular_iff (hw : w.IsStatic) (h : Lineage w.parent? [] c cs fate)
    (hc : w.find? c.key = some c) (htraits : ∀ d ∈ w.classes, d.traitNames = [])
    (written : String) {s : Store} (hs : s.Within w L K) :
    (∃ f, outcome (property c written) s = .error f ∧ f.kind? = some .circularReference)
      ↔ fate = .circular ∧ ∀ d ∈ cs, ∃ ds, d.ownDeclarations = .ok ds
          ∧ declares ds (PropertyDeclaration.bareName written) = false := by
  have hsurvey := survey_error_iff (fun b => fate.close c.name b)
    fun d (_ : d ∈ cs) => d.ownProperty?_failsOnly (PropertyDeclaration.bareName written)
  rw [close_circular_iff h] at hsurvey
  simp only [ReflectedClass.ownProperty?_eq_none_iff] at hsurvey
  rw [and_comm, ← hsurvey, (property_comes hw h hc htraits written s hs).1]
  -- that there is no such property is another failure
  generalize survey _ _ cs none = o
  cases o with
  | error f =>
    rw [error_bind]
    simp only [beq_iff_eq, Except.error.injEq]
  | ok found =>
    rw [ok_bind]
    refine ⟨fun ⟨f, hf, hkind⟩ => ?_, fun ⟨_, hf, _⟩ => by cases hf⟩
    cases found with
    | none => cases hf; cases hkind
    | some p => cases hf

end

/-- Over sources that do not change, after any calls, a declared class has one lineage. No
two names on it differ in letter case only, and the names of the class's ancestors come to
those on it, or to the failure of a missing parent or of a circle. Without traits a
property is missed with the failure of a circle exactly if the lineage is circular and all
its classes, whose declarations can be read, lack the property. -/
theorem Store.parentNames_fate (w : World) (hw : w.IsStatic) (calls : List Call)
    (c : ReflectedClass) (hc : w.find? c.key = some c) :
    ∃ cs fate, Lineage w.parent? [] c cs fate
      ∧ (∀ cs' fate', Lineage w.parent? [] c cs' fate' → cs' = cs ∧ fate' = fate)
      ∧ (cs.map fun d => LetterCase.lower d.name).Nodup
      ∧ (∀ f, fate = .missing f → f.isNotFound = true)
      ∧ outcome (parentNames c) ((ofWorld w).afterCalls calls)
          = fate.close c.name ((cs.map (·.name)).drop 1)
      ∧ ((∀ d ∈ w.classes, d.traitNames = []) → ∀ written,
        (∃ f, outcome (property c written) ((ofWorld w).afterCalls calls) = .error f
            ∧ f.kind? = some .circularReference)
          ↔ fate = .circular ∧ ∀ d ∈ cs, ∃ ds, d.ownDeclarations = .ok ds
              ∧ declares ds (PropertyDeclaration.bareName written) = false) := by
  have hs := within_ofWorld.afterCalls hw calls
  obtain ⟨cs, fate, h⟩ := exists_lineage (fun _ _ => World.key_mem_knownKeys_of_parent? (w := w)) [] c
  refine ⟨cs, fate, h, fun _ _ h' => h.unique h', ?_, fun f hf => ?_,
    (parentNames_comes hw h hc _ hs).1,
    fun htraits written => property_circular_iff hw h hc htraits written hs⟩
  · -- names that differ in letter case only would have one key
    have hkeys := (h.keys_nodup List.not_mem_nil).1
    rw [List.Nodup, List.pairwise_map] at hkeys ⊢
    exact hkeys.imp fun hne heq => hne (Identifier.normalize_congr heq)
  · obtain ⟨d, _, hnext⟩ := h.exists_missing hf
    exact World.isNotFound_of_parent? hnext

/-! ## A class that extends itself -/

/-- A text with a class that extends itself and declares a property without a name. -/
def selfParentText : String := "<?php class A extends A \x7b public $; \x7d"

/-- The start of the text. -/
def selfParentTag : Node := ⟨"php_tag", 0, 5, none, true, false, []⟩

/-- The declaration in `selfParentText`. -/
def selfParentClass : Node :=
  ⟨"class_declaration", 6, 37, none, true, false,
    [⟨"class", 6, 11, none, false, false, []⟩, ⟨"name", 12, 13, some "name", true, false, []⟩,
      ⟨"base_clause", 14, 23, none, true, false,
        [⟨"extends", 14, 21, none, false, false, []⟩, ⟨"name", 22, 23, none, true, false, []⟩]⟩,
      ⟨"declaration_list", 24, 37, some "body", true, false,
        [⟨"\x7b", 24, 25, none, false, false, []⟩,
          ⟨"property_declaration", 26, 35, none, true, false,
            [⟨"visibility_modifier", 26, 32, none, true, false,
                [⟨"public", 26, 32, none, false, false, []⟩]⟩,
              ⟨"property_element", 33, 34, none, true, false,
                [⟨"variable_name", 33, 34, some "name", true, false,
                  [⟨"$", 33, 34, none, false, false, []⟩,
                    ⟨"name", 34, 34, none, true, true, []⟩]⟩]⟩,
              ⟨";", 34, 35, none, false, false, []⟩]⟩,
          ⟨"\x7d", 36, 37, none, false, false, []⟩]⟩]⟩

/-- A world with nothing but that class. -/
def selfParentWorld : World :=
  ⟨FileTree.empty [],
    [(selfParentText, ⟨"program", 0, 37, none, true, false, [selfParentTag, selfParentClass]⟩)],
    [.text selfParentText "<string>"], []⟩

/-- The class in that world. -/
def selfParent : ReflectedClass :=
  ⟨⟨⟨selfParentClass, [selfParentTag]⟩, .classKind, "A", NameScope.empty⟩,
    selfParentWorld.trees.parse selfParentText "<string>"⟩

theorem classes_selfParentWorld : selfParentWorld.classes = [selfParent] := by
  have hsources : selfParentWorld.sources = [selfParent.source] := rfl
  have hchildren : selfParent.source.root.children = [selfParentTag, selfParentClass] := rfl
  have hclass : ClassLike.walk selfParent.source.text [selfParentTag] [selfParentClass]
      NameScope.empty = ([selfParent.classLike], []) := by
    rw [ClassLike.walk, ClassLike.walk]
    rfl
  have hwalk : ClassLike.walk selfParent.source.text [] [selfParentTag, selfParentClass]
      NameScope.empty = ([selfParent.classLike], []) := by
    refine Eq.trans ?_ hclass
    rw [ClassLike.walk]
    rfl
  rw [World.classes, hsources, List.flatMap_singleton, World.classesIn, ClassLike.all, hchildren,
    hwalk]
  rfl

theorem isStatic_selfParentWorld : selfParentWorld.IsStatic := World.isStatic_of_text rfl

theorem find?_selfParent : selfParentWorld.find? selfParent.key = some selfParent := by
  rw [World.find?, classes_selfParentWorld]
  rfl

theorem lineage_selfParent :
    Lineage selfParentWorld.parent? [] selfParent [selfParent] .circular := by
  have hname : selfParent.parentName? = some "A" := by
    have hclause : selfParent.parentName? = some (NameScope.empty.resolve "A") := rfl
    rw [hclause, NameScope.resolve_eq]
    rfl
  have hanswer : selfParentWorld.answer "A" = .ok selfParent :=
    World.answer_name (c := selfParent) find?_selfParent rfl
  refine .last (.circular (d := selfParent) ?_ (List.mem_cons_self ..))
  rw [World.parent?, hname]
  exact congrArg (· >>= fun d => .ok (some d)) hanswer

/-- The lineage of the class that extends itself is circular, whatever was asked before. -/
theorem parentNames_fate_selfParent :
    selfParentWorld.IsStatic ∧ selfParentWorld.find? selfParent.key = some selfParent
      ∧ outcome (parentNames selfParent) ((ofWorld selfParentWorld).afterCalls
          [.property (.named "A") "x"]) = .error (.circularInheritance "A") := by
  refine ⟨isStatic_selfParentWorld, find?_selfParent, ?_⟩
  obtain ⟨cs, fate, _, hunique, _, _, hnames, _⟩ := Store.parentNames_fate selfParentWorld
    isStatic_selfParentWorld [.property (.named "A") "x"] selfParent find?_selfParent
  obtain ⟨rfl, rfl⟩ := hunique _ _ lineage_selfParent
  exact hnames

/-- Parents go round in a circle, and no class on the way has the property, but looking for
it fails because of a declaration without a name. -/
theorem circularParent_namelessProperty :
    (∀ d ∈ selfParentWorld.classes, d.traitNames = [])
      ∧ Lineage selfParentWorld.parent? [] selfParent [selfParent] .circular
      ∧ (∀ ds, selfParent.ownDeclarations = .ok ds → declares ds "x" = false)
      ∧ outcome (property selfParent "x") (ofWorld selfParentWorld)
          = .error .namelessProperty := by
  have htraits : ∀ d ∈ selfParentWorld.classes, d.traitNames = [] := by
    rw [classes_selfParentWorld]
    exact List.forall_mem_singleton.mpr rfl
  have hown : selfParent.ownDeclarations = .error .namelessProperty := rfl
  refine ⟨htraits, lineage_selfParent, fun ds hds => ?_, ?_⟩
  · rw [hown] at hds
    cases hds
  · rw [(property_comes (K := []) isStatic_selfParentWorld lineage_selfParent find?_selfParent
      htraits "x" _ within_ofWorld).1]
    have hlook : selfParent.ownProperty? "x" = .error .namelessProperty := by
      rw [ReflectedClass.ownProperty?, hown]
      rfl
    rw [survey_error hlook]
    rfl

end StaticReflection
