import StaticReflection.Proofs.Declaration.NameScope
import StaticReflection.Proofs.Reflection.Progress

/-!
# Which declaration a constant is

A constant that a class lacks is searched in its parent and then in its interfaces, each
with its own relatives before the next. `World.declarers` lists the classes that declare
it in that order. The search does not stop at the first of them:

> `Store.constantValue_declarers`: a constant that a class lacks is that of the first
> declaring class whose constant does not fail because it is no constant, or because a
> class is not found; if all fail so, it counts as not located.

So a declaration that cannot be folded is passed over for a farther one
(`constantValue_declarers_passedOver`), and where the nearest declaration has a value, that
is the value.
-/

namespace StaticReflection

open Folding Outcome Reflector Store

/-- An outcome, or the next one if it is a failure that a search passes over. -/
def Outcome.orNext {α : Type} (o next : Outcome α) : Outcome α :=
  match o with
  | .ok a => .ok a
  | .error f => if f.isNotFound || f.isUnfoldable then next else .error f

/-- The first outcome for some classes that is not passed over; a failure if all are. -/
def firstSettled (valueOf : ReflectedClass → Outcome Value) (failure : Failure) :
    List ReflectedClass → Outcome Value
  | [] => .error failure
  | d :: ds => (valueOf d).orNext (firstSettled valueOf failure ds)

namespace World

variable (w : World)

/-- The classes with some names; a name that is not found is left out. -/
def found (names : List String) : List ReflectedClass :=
  names.filterMap fun name => (w.answer name).toOption

/-- The classes that declare a constant, in the order in which a search from a class comes
to them: the class itself, or those of its relatives one after the other. -/
def declarers (name : String) : Nat → ReflectedClass → List ReflectedClass
  | 0, _ => []
  | fuel + 1, c =>
    if (c.constant? name).isSome then [c]
    else (w.found c.relatedNames).flatMap (declarers name fuel)

/-- The first outcome for the classes with some names that is not passed over. -/
def inherit (valueOf : ReflectedClass → Outcome Value) (failure : Failure) :
    List String → Outcome Value
  | [] => .error failure
  | name :: rest => (w.answer name >>= valueOf).orNext (inherit valueOf failure rest)

end World

section

variable {w : World}

theorem World.found_cons_ok {name : String} {d : ReflectedClass} (h : w.answer name = .ok d)
    (rest : List String) : w.found (name :: rest) = d :: w.found rest :=
  List.filterMap_cons_some (by rw [h]; rfl)

theorem World.found_cons_error {name : String} {f : Failure} (h : w.answer name = .error f)
    (rest : List String) : w.found (name :: rest) = w.found rest :=
  List.filterMap_cons_none (by rw [h]; rfl)

theorem World.declarers_own {name : String} {c : ReflectedClass}
    (h : (c.constant? name).isSome) (fuel : Nat) : w.declarers name (fuel + 1) c = [c] :=
  if_pos h

theorem World.declarers_lacking {name : String} {c : ReflectedClass}
    (h : c.constant? name = none) (fuel : Nat) :
    w.declarers name (fuel + 1) c = (w.found c.relatedNames).flatMap (w.declarers name fuel) :=
  if_neg (by rw [h]; exact Bool.false_ne_true)

end

/-! ## Outcomes that are passed over -/

section

variable {α : Type}

theorem Outcome.orNext_passed {f : Failure} (hf : (f.isNotFound || f.isUnfoldable) = true)
    (next : Outcome α) : Outcome.orNext (.error f) next = next := if_pos hf

theorem Outcome.orNext_error {f : Failure} (hf : ¬(f.isNotFound || f.isUnfoldable) = true)
    (next : Outcome α) : Outcome.orNext (.error f) next = .error f := if_neg hf

theorem Outcome.orNext_assoc (o next last : Outcome α) :
    (o.orNext next).orNext last = o.orNext (next.orNext last) := by
  cases o with
  | ok a => rfl
  | error f =>
    by_cases hf : (f.isNotFound || f.isUnfoldable) = true
    · rw [orNext_passed hf, orNext_passed hf]
    · rw [orNext_error hf, orNext_error hf, orNext_error hf]

/-- The classes of one relative are followed by those of the others if they are all passed
over, and so is their own failure. -/
theorem firstSettled_append {valueOf : ReflectedClass → Outcome Value} {failure own : Failure}
    (hown : (own.isNotFound || own.isUnfoldable) = true) (ds es : List ReflectedClass) :
    firstSettled valueOf failure (ds ++ es)
      = (firstSettled valueOf own ds).orNext (firstSettled valueOf failure es) := by
  induction ds with
  | nil => exact (Outcome.orNext_passed hown _).symm
  | cons d ds ih => rw [List.cons_append, firstSettled, firstSettled, ih, Outcome.orNext_assoc]

end

/-! ## A search among relatives -/

section

variable {w : World} {L : List ConstantKey} {K : List String}

theorem firstRelative_comes (hw : w.IsStatic) {valueIn : ReflectedClass → Query Value}
    {valueOf : ReflectedClass → Outcome Value} {failure : Failure} {names : List String}
    (h : ∀ name ∈ names, ∀ d, w.answer name = .ok d →
      Comes (Within w L K) (valueIn d) (valueOf d) (Within w L K)) :
    Comes (Within w L K) (firstRelative valueIn failure names) (w.inherit valueOf failure names)
      (Within w L K) := by
  induction names with
  | nil => exact .throw
  | cons name rest ih =>
    have hname : Comes (Within w L K) (reflect name >>= valueIn) (w.answer name >>= valueOf)
        (Within w L K) :=
      (reflect_comes hw name).bind fun d hd => h name (List.mem_cons_self ..) d hd
    have hrest := ih fun other hother => h other (List.mem_cons_of_mem _ hother)
    unfold firstRelative
    rw [World.inherit]
    cases ho : w.answer name >>= valueOf with
    | ok v => rw [ho] at hname; exact hname.tryCatch_ok
    | error f =>
      rw [ho] at hname
      refine hname.tryCatch_error ?_
      by_cases hf : (f.isNotFound || f.isUnfoldable) = true
      · rw [if_pos hf, orNext_passed hf]
        exact hrest
      · rw [if_neg hf, orNext_error hf]
        exact .throw

/-- A constant that a class lacks is what its relatives have. -/
theorem constantValue_inherit (hw : w.IsStatic) (hacyclic : w.IsAcyclic) {c : ReflectedClass}
    (hc : w.find? c.key = some c) {name : String} (hlacks : c.constant? name = none) {s : Store}
    (hs : s.Within w L K) :
    outcome (constantValue c name) s
      = w.inherit (fun d => outcome (constantValue d name) s)
          (.unfoldable (.constantNotLocated c.name name)) c.relatedNames := by
  have hbound := hs.coherent.bound_lt_depth L []
  have hless := World.bound_search_lt (L := L) (World.mem_classes_of_find? hc)
    (List.not_mem_nil (a := c.key))
  obtain ⟨fuel, hfuel⟩ := Nat.exists_eq_add_one.mpr (Nat.zero_lt_of_lt hbound)
  rw [outcome_constantValue, hfuel, constantWithin, hlacks]
  simp only
  rw [if_neg (by exact Bool.false_ne_true)]
  -- the search in a relative that is under way comes to what one from the start comes to
  have hrelatives : ∀ relative ∈ c.relatedNames, ∀ d, w.answer relative = .ok d →
      Comes (Within w L K) (constantWithin fuel [c.key] d name)
        (outcome (constantValue d name) s) (Within w L K) := by
    intro relative hrelative d hans t ht
    have hd := World.find?_key_of_answer hans
    have hpath := World.LeadsFrom.nil.step hc ⟨relative, hrelative, hans⟩
    have hagree : Agree (Twin (Within w L K)) (FailsOnly fun _ => true)
        (constantWithin fuel [c.key] d name) (constantWithin s.depth [] d name) :=
      constantWithin_agree hw (fun _ _ => rfl) (.inr hacyclic) hd (by omega) hbound hpath .nil
    obtain ⟨hsame, _, hafter⟩ := hagree t s ⟨ht, hs⟩
    rw [outcome_constantValue]
    exact ⟨hsame, hafter.1⟩
  exact (firstRelative_comes hw hrelatives s hs).1

/-- What relatives have is what the first class has that the search comes to, if each of
them has what the first class has that its own search comes to. -/
theorem inherit_declarers {valueOf : ReflectedClass → Outcome Value} {name : String} {fuel : Nat}
    {names : List String} (failure : Failure)
    (h : ∀ relative ∈ names, ∀ d, w.answer relative = .ok d → d.constant? name = none →
      valueOf d = firstSettled valueOf (.unfoldable (.constantNotLocated d.name name))
        (w.declarers name fuel d))
    (hfuel : 0 < fuel) :
    w.inherit valueOf failure names
      = firstSettled valueOf failure ((w.found names).flatMap (w.declarers name fuel)) := by
  induction names with
  | nil => rfl
  | cons relative rest ih =>
    have hrest := ih fun other hother => h other (List.mem_cons_of_mem _ hother)
    rw [World.inherit, hrest]
    cases hans : w.answer relative with
    | error f =>
      -- a relative that is not found is passed over
      have hf : (f.isNotFound || f.isUnfoldable) = true := by
        rw [World.isNotFound_of_answer hans, Bool.true_or]
      rw [World.found_cons_error hans, error_bind, orNext_passed hf]
    | ok d =>
      rw [World.found_cons_ok hans, List.flatMap_cons, ok_bind]
      cases hd : d.constant? name with
      | some k =>
        obtain ⟨fuel, rfl⟩ := Nat.exists_eq_add_one.mpr hfuel
        rw [World.declarers_own (Option.isSome_of_eq_some hd), List.singleton_append, firstSettled]
      | none =>
        have hown : ((Failure.unfoldable (.constantNotLocated d.name name)).isNotFound
            || (Failure.unfoldable (.constantNotLocated d.name name)).isUnfoldable) = true := rfl
        rw [h relative (List.mem_cons_self ..) d hans hd, firstSettled_append hown]

/-- The constant that a class lacks is that of the first class which declares it, in the
order of the search, whose outcome is not passed over. -/
theorem constantValue_firstSettled (hw : w.IsStatic) (hacyclic : w.IsAcyclic) {s : Store}
    (hs : s.Within w L K) {name : String} {fuel : Nat} {searched : List String}
    {c : ReflectedClass} (hc : w.find? c.key = some c) (hlacks : c.constant? name = none)
    (hpath : w.LeadsFrom searched c) (hfuel : unused w.knownKeys searched < fuel) :
    outcome (constantValue c name) s
      = firstSettled (fun d => outcome (constantValue d name) s)
          (.unfoldable (.constantNotLocated c.name name)) (w.declarers name fuel c) := by
  induction fuel generalizing searched c with
  | zero => exact absurd hfuel (Nat.not_lt_zero _)
  | succ fuel ih =>
    have hless := unused_cons_lt (World.key_mem_knownKeys (World.mem_classes_of_find? hc))
      (hpath.not_mem hacyclic hc)
    rw [constantValue_inherit hw hacyclic hc hlacks hs, World.declarers_lacking hlacks]
    have hrelatives : ∀ relative ∈ c.relatedNames, ∀ d, w.answer relative = .ok d →
        d.constant? name = none → outcome (constantValue d name) s
          = firstSettled (fun d => outcome (constantValue d name) s)
              (.unfoldable (.constantNotLocated d.name name)) (w.declarers name fuel d) := by
      intro relative hrelative d hans hd
      have hstep := hpath.step hc ⟨relative, hrelative, hans⟩
      exact ih (World.find?_key_of_answer hans) hd hstep (by omega)
    exact inherit_declarers (.unfoldable (.constantNotLocated c.name name)) hrelatives (by omega)

end

/-- Over sources that do not change, and in which no class inherits from itself, after any
calls and amid any folds: the constant that a class lacks is that of the first class which
declares it, in the order of the search, whose constant does not fail because it is no
constant or because a class is not found. If all fail so, or there are none, the constant
counts as not located. -/
theorem Store.constantValue_declarers (w : World) (hw : w.IsStatic) (hacyclic : w.IsAcyclic)
    (calls : List Call) (L : List ConstantKey) (c : ReflectedClass)
    (hc : w.find? c.key = some c) (name : String) (hlacks : c.constant? name = none)
    (fuel : Nat) (hfuel : w.knownKeys.length < fuel) :
    outcome (constantValue c name) (amid w calls L)
      = firstSettled (fun d => outcome (constantValue d name) (amid w calls L))
          (.unfoldable (.constantNotLocated c.name name)) (w.declarers name fuel c) :=
  constantValue_firstSettled hw hacyclic (within_amid hw calls L) hc hlacks .nil
    (Nat.lt_of_le_of_lt unused_le_length hfuel)

/-! ## A declaration that is passed over -/

/-- The value of a constant that is not being folded and whose expression has no operands. -/
theorem constantValue_done {c : ReflectedClass} {name : String} {d : ConstantDeclaration}
    {o : Outcome Value} {s : Store} (hd : c.constant? name = some d)
    (hfree : s.folding.contains (c.key, name) = false)
    (hplan : ∀ resolve, (folder c c.source resolve []).plan d.value = .done o) :
    outcome (constantValue c name) s = o := by
  obtain ⟨fuel, hfuel⟩ := Nat.exists_eq_add_one.mpr s.depth_pos
  rw [outcome_constantValue, hfuel, constantWithin, hd]
  exact (whileFolding_free (Bool.eq_false_iff.mp hfree)).1.trans (Folder.fold_done (hplan _))

/-- A text with a class whose parent and whose interface both declare a constant; only that
of the interface has a value. -/
def passingText : String :=
  "<?php class A \x7b const X = f(); \x7d interface I \x7b const X = null; \x7d "
    ++ "class B extends A implements I \x7b \x7d"

/-- The start of the text. -/
def passingTag : Node := ⟨"php_tag", 0, 5, none, true, false, []⟩

/-- A class-like that declares a constant under a name of one letter. -/
def constantHolder (kind : String) (start name stop : Nat) (value : Node) : Node :=
  ⟨kind, start, stop, none, true, false,
    [⟨"name", name, name + 1, some "name", true, false, []⟩,
      ⟨"declaration_list", name + 2, stop, some "body", true, false,
        [⟨"const_declaration", name + 4, stop - 2, none, true, false,
          [⟨"const_element", name + 10, stop - 3, none, true, false,
            [⟨"name", name + 10, name + 11, none, true, false, []⟩, value]⟩]⟩]⟩]⟩

/-- The first declaration in `passingText`. -/
def callingClass : Node :=
  constantHolder "class_declaration" 6 12 32
    ⟨"function_call_expression", 26, 29, none, true, false, []⟩

/-- The second declaration in `passingText`. -/
def nullInterface : Node :=
  constantHolder "interface_declaration" 33 43 64 ⟨"null", 57, 61, none, true, false, []⟩

/-- The third declaration in `passingText`. -/
def passingClass : Node :=
  ⟨"class_declaration", 65, 99, none, true, false,
    [⟨"name", 71, 72, some "name", true, false, []⟩,
      ⟨"base_clause", 73, 82, none, true, false, [⟨"name", 81, 82, none, true, false, []⟩]⟩,
      ⟨"class_interface_clause", 83, 95, none, true, false,
        [⟨"name", 94, 95, none, true, false, []⟩]⟩,
      ⟨"declaration_list", 96, 99, some "body", true, false, []⟩]⟩

/-- A world with nothing but these class-likes. -/
def passingWorld : World :=
  ⟨FileTree.empty [],
    [(passingText, ⟨"program", 0, 99, none, true, false,
      [passingTag, callingClass, nullInterface, passingClass]⟩)],
    [.text passingText "<string>"], []⟩

/-- The parent, whose constant has no value. -/
def calling : ReflectedClass :=
  ⟨⟨⟨callingClass, [passingTag]⟩, .classKind, "A", NameScope.empty⟩,
    passingWorld.trees.parse passingText "<string>"⟩

/-- The interface. -/
def nullHolding : ReflectedClass :=
  ⟨⟨⟨nullInterface, [callingClass, passingTag]⟩, .interfaceKind, "I", NameScope.empty⟩,
    passingWorld.trees.parse passingText "<string>"⟩

/-- The class that inherits from both. -/
def passing : ReflectedClass :=
  ⟨⟨⟨passingClass, [nullInterface, callingClass, passingTag]⟩, .classKind, "B",
      NameScope.empty⟩, passingWorld.trees.parse passingText "<string>"⟩

/-- The class-likes in the text do not depend on where it comes from. -/
theorem classLikes_passingText (path : String) :
    ClassLike.all (passingWorld.trees.parse passingText path)
      = [calling.classLike, nullHolding.classLike, passing.classLike] := by
  have hchildren : (passingWorld.trees.parse passingText path).root.children
      = [passingTag, callingClass, nullInterface, passingClass] := rfl
  have htext : (passingWorld.trees.parse passingText path).text = calling.source.text := rfl
  have hthird : ClassLike.walk calling.source.text [nullInterface, callingClass, passingTag]
      [passingClass] NameScope.empty = ([passing.classLike], []) := by
    rw [ClassLike.walk, ClassLike.walk]
    rfl
  have hsecond : ClassLike.walk calling.source.text [callingClass, passingTag]
      [nullInterface, passingClass] NameScope.empty
      = ([nullHolding.classLike, passing.classLike], []) := by
    rw [ClassLike.walk, hthird]
    rfl
  have hfirst : ClassLike.walk calling.source.text [passingTag]
      [callingClass, nullInterface, passingClass] NameScope.empty
      = ([calling.classLike, nullHolding.classLike, passing.classLike], []) := by
    rw [ClassLike.walk, hsecond]
    rfl
  have hwalk : ClassLike.walk calling.source.text []
      [passingTag, callingClass, nullInterface, passingClass] NameScope.empty
      = ([calling.classLike, nullHolding.classLike, passing.classLike], []) := by
    refine Eq.trans ?_ hfirst
    rw [ClassLike.walk]
    rfl
  rw [ClassLike.all, hchildren, htext, hwalk]

theorem classes_passingWorld : passingWorld.classes = [calling, nullHolding, passing] := by
  have hsources : passingWorld.sources = [passingWorld.trees.parse passingText "<string>"] := rfl
  rw [World.classes, hsources, List.flatMap_singleton, World.classesIn, classLikes_passingText]
  rfl

theorem knownKeys_passingWorld : passingWorld.knownKeys = ["a", "i", "b"] := by
  have htexts : Store.texts passingWorld = [passingText] := rfl
  rw [World.knownKeys, World.known, htexts, List.flatMap_singleton, World.classesIn,
    classLikes_passingText]
  rfl

theorem relatedNames_passing : passing.relatedNames = ["A", "I"] := by
  have hclauses : passing.relatedNames
      = ((some (NameScope.empty.resolve "A")).filter (!·.isEmpty)).toList
        ++ [NameScope.empty.resolve "I"] := rfl
  have hparent : NameScope.empty.resolve "A" = "A" := (NameScope.resolve_eq _ _).trans rfl
  have hinterface : NameScope.empty.resolve "I" = "I" := (NameScope.resolve_eq _ _).trans rfl
  rw [hclauses, hparent, hinterface]
  rfl

theorem answer_calling : passingWorld.answer "A" = .ok calling := by
  refine World.answer_name (c := calling) ?_ rfl
  rw [World.find?, classes_passingWorld]
  rfl

theorem answer_nullHolding : passingWorld.answer "I" = .ok nullHolding := by
  refine World.answer_name (c := nullHolding) ?_ rfl
  rw [World.find?, classes_passingWorld]
  rfl

theorem isStatic_passingWorld : passingWorld.IsStatic := World.isStatic_of_text rfl

theorem isAcyclic_passingWorld : passingWorld.IsAcyclic := by
  -- only the third class has relatives, and they have none
  refine World.isAcyclic_of_rank (fun c => c.relatedNames.length) fun c hc d hstep => ?_
  obtain ⟨name, hname, hans⟩ := hstep
  have hcalling : calling.relatedNames = [] := rfl
  have hnullHolding : nullHolding.relatedNames = [] := rfl
  rw [classes_passingWorld] at hc
  rcases List.mem_cons.mp hc with rfl | hc
  · rw [hcalling] at hname
    cases hname
  rcases List.mem_cons.mp hc with rfl | hc
  · rw [hnullHolding] at hname
    cases hname
  obtain rfl := List.mem_singleton.mp hc
  rw [relatedNames_passing] at hname ⊢
  rcases List.mem_cons.mp hname with rfl | hname
  · rw [answer_calling] at hans
    cases hans
    exact Nat.zero_lt_succ _
  · obtain rfl := List.mem_singleton.mp hname
    rw [answer_nullHolding] at hans
    cases hans
    exact Nat.zero_lt_succ _

/-- The nearest declaration has no value, and the constant has that of the next one. -/
theorem constantValue_declarers_passedOver :
    passingWorld.IsStatic ∧ passingWorld.IsAcyclic
      ∧ passingWorld.find? passing.key = some passing ∧ passing.constant? "X" = none
      ∧ passingWorld.knownKeys.length < 4
      ∧ passingWorld.declarers "X" 4 passing = [calling, nullHolding]
      ∧ outcome (constantValue calling "X") (amid passingWorld [] [])
        = .error (.unfoldable (.notConstant "function_call_expression" "f()"))
      ∧ outcome (constantValue passing "X") (amid passingWorld [] []) = .ok .null := by
  have hfind : passingWorld.find? passing.key = some passing := by
    rw [World.find?, classes_passingWorld]
    rfl
  have hlacks : passing.constant? "X" = none := rfl
  have hkeys : passingWorld.knownKeys.length < 4 := by
    rw [knownKeys_passingWorld]
    exact Nat.lt_add_one 3
  have hdeclarers : passingWorld.declarers "X" 4 passing = [calling, nullHolding] := by
    have hnil : passingWorld.found [] = [] := rfl
    rw [World.declarers_lacking hlacks, relatedNames_passing, World.found_cons_ok answer_calling,
      World.found_cons_ok answer_nullHolding, hnil]
    rfl
  have hcalling : outcome (constantValue calling "X") (amid passingWorld [] [])
      = .error (.unfoldable (.notConstant "function_call_expression" "f()")) :=
    constantValue_done rfl rfl fun _ => rfl
  have hnullHolding : outcome (constantValue nullHolding "X") (amid passingWorld [] [])
      = .ok .null := constantValue_done rfl rfl fun _ => rfl
  refine ⟨isStatic_passingWorld, isAcyclic_passingWorld, hfind, hlacks, hkeys, hdeclarers,
    hcalling, ?_⟩
  rw [Store.constantValue_declarers passingWorld isStatic_passingWorld isAcyclic_passingWorld [] []
    passing hfind "X" hlacks 4 hkeys, hdeclarers, firstSettled, firstSettled, hcalling,
    hnullHolding]
  rfl

end StaticReflection
