import StaticReflection.Proofs.Reflection.ConstantSearch

/-!
# Queries after other queries

A reflector is asked about classes and about what they have, in any order, and some of
its queries fail. `Call` lists the queries, `Call.run` what a store makes of them, and
`Store.afterCalls` is a store after some of them.

> `Store.outcome_afterCalls`: over sources that do not change, a call comes to the same
> after any calls as in a store in which nothing was asked yet, and reflecting an
> identifier comes to `World.answer`.

The step of the induction is `Call.run_agree`: a call preserves coherence, and from
coherent stores it comes to one outcome.
-/

namespace StaticReflection

open Folding Outcome Reflector Store

/-- How a caller gets hold of a class: by an identifier, or by its position in the list
of all classes. -/
inductive Target where
  | named (identifier : String)
  | listed (position : Nat)

/-- A query of a caller. -/
inductive Call where
  | reflect (identifier : String)
  | hasClass (identifier : String)
  | allClasses
  | properties (target : Target)
  | property (target : Target) (name : String)
  | constantValue (target : Target) (name : String)
  | defaultValue (target : Target) (name : String)

/-- What a caller is told. -/
inductive Answer where
  | found (c : ReflectedClass)
  | truth (b : Bool)
  | classes (cs : List ReflectedClass)
  | properties (ps : List Property)
  | property (p : Property)
  | value (v : Value)
  /-- The list of all classes has no such position. -/
  | nothing

/-- The class of a target. -/
def Target.find : Target → Query (Option ReflectedClass)
  | .named identifier => do return some (← Reflector.reflect identifier)
  | .listed position => do return (← Reflector.allClasses)[position]?

/-- Asks the class of a target. -/
def Target.ask (t : Target) (query : ReflectedClass → Query Answer) : Query Answer := do
  match ← t.find with
  | some c => query c
  | none => return .nothing

/-- What a store makes of a call. -/
def Call.run : Call → Query Answer
  | .reflect identifier => do return .found (← Reflector.reflect identifier)
  | .hasClass identifier => do return .truth (← Reflector.hasClass identifier)
  | .allClasses => do return .classes (← Reflector.allClasses)
  | .properties t => t.ask fun c => do return .properties (← Reflector.properties c)
  | .property t name => t.ask fun c => do return .property (← Reflector.property c name)
  | .constantValue t name => t.ask fun c => do return .value (← Reflector.constantValue c name)
  | .defaultValue t name => t.ask fun c => do
    return .value (← Reflector.defaultValue (← Reflector.property c name))

/-- A store after some calls, whatever they came to. -/
def Store.afterCalls (s : Store) (calls : List Call) : Store :=
  calls.foldl (fun t call => after call.run t) s

section

variable {w : World} {L : List ConstantKey} {K : List String}

/-- The fold of a default value comes to what it comes to when nothing has been asked. -/
theorem foldDefault_comes (hw : w.IsStatic) {c : ReflectedClass} (hc : w.find? c.key = some c)
    (e : Expression) :
    Comes (Within w [] K) ((folder c e.source (resolveConstant c) (defaultMagic c e)).fold e.node)
      (outcome ((folder c e.source (resolveConstant c) (defaultMagic c e)).fold e.node) (ofWorld w))
      (Within w [] K) := by
  intro s hs
  have hfresh : s.Within w [] [] := hs.mono fun _ h => by cases h
  have hall := fun K => foldDefault_agree (L := []) (K := K) (p := fun _ => true) hw
    (fun _ _ => rfl) (.inl rfl) hc e
  exact ⟨(hall [] s (ofWorld w) ⟨hfresh, within_ofWorld⟩).1, (hall K s s ⟨hs, hs⟩).2.2.1⟩

/-- The default value of an owned property is the kept one, or that which is then kept; it
is what its expression folds to when nothing has been asked. -/
theorem defaultValue_comes_fold (hw : w.IsStatic) {c : ReflectedClass}
    {ds : List PropertyDeclaration} {d : PropertyDeclaration} {e : Expression} (hc : w.Has K c)
    (hds : w.Gathers c (.ok ds)) (hd : ds.find? (fun d' => d'.name == d.name) = some d)
    (he : d.default = some e) :
    Comes (Within w [] K) (defaultValue (Property.ofClass c d))
      (outcome ((folder c e.source (resolveConstant c) (defaultMagic c e)).fold e.node) (ofWorld w))
      (Within w [] K) := by
  have hdefault : (Property.ofClass c d).declaration.default = some e := he
  unfold defaultValue
  rw [hdefault]
  refine .get_bind fun s hs => ?_
  have hplace : ((Property.ofClass c d).place?.bind fun k => s.defaults.lookup k)
      = s.defaults.lookup (c.key, d.name) := rfl
  rw [hplace]
  cases hkept : s.defaults.lookup (c.key, d.name) with
  | some v =>
    -- what is kept under the key of the property is about this very declaration
    obtain ⟨c', ds', d', e', hc', hds', hd', he', hv⟩ := hs.coherent.defaults _ _ hkept
    obtain rfl := Option.some.inj (hc.1.symm.trans hc')
    obtain rfl := Except.ok.inj (hds.unique hds')
    obtain rfl := Option.some.inj (hd.symm.trans hd')
    obtain rfl := Option.some.inj (he.symm.trans he')
    exact ⟨hv.symm, hs⟩
  | none =>
    refine Comes.run ((declaringClass_comes hw hc d).bind_ok ?_) hs
    have hfold := foldDefault_comes (K := K) hw hc.1 e
    cases ho : outcome ((folder c e.source (resolveConstant c) (defaultMagic c e)).fold e.node)
        (ofWorld w) with
    | error f => rw [ho] at hfold; exact hfold.bind_error
    | ok v =>
      rw [ho] at hfold
      refine hfold.bind_ok (.bind_ok (.modify fun t ht => ?_) .pure)
      exact ht.putDefault ⟨c, ds, d, e, hc.1, hds, hd, he, ho⟩

theorem defaultValue_comes (hw : w.IsStatic) {p : Property} (hp : w.Owns K p) :
    ∃ o, Comes (Within w [] K) (defaultValue p) o (Within w [] K) := by
  obtain ⟨c, ds, d, hc, hds, hd, rfl⟩ := hp
  cases he : d.default with
  | some e => exact ⟨_, defaultValue_comes_fold hw hc hds hd he⟩
  | none =>
    have hdefault : (Property.ofClass c d).declaration.default = none := he
    unfold defaultValue
    rw [hdefault]
    exact ⟨_, .pure⟩

/-! ## Calls -/

/-- A listed class is kept once all are listed. -/
theorem has_of_mem_listed {c : ReflectedClass} (h : c ∈ w.listed) : w.Has (w.keys ++ K) c := by
  obtain ⟨d, hd, rfl⟩ := List.mem_map.mp h
  obtain ⟨c, hc⟩ := World.exists_find? hd
  have hcanonical : w.canonical d = c := by
    unfold World.canonical
    rw [hc]
    rfl
  rw [hcanonical]
  refine ⟨World.find?_key hc, .inl (List.mem_append_left _ ?_)⟩
  rw [World.key_of_find? hc]
  exact World.mem_keys_of_find? hc

/-- What is asked of the class of a target does not depend on the store if what is asked
of a class that stores have does not. -/
theorem Target.ask_agree (hw : w.IsStatic) {query : ReflectedClass → Query Answer}
    (h : ∀ K c, w.Has K c → Agree (Twin (Within w [] K)) (fun _ => True) (query c) (query c))
    (t : Target) :
    Agree (Twin (Within w [] [])) (fun _ => True) (t.ask query) (t.ask query) := by
  cases t with
  | named identifier =>
    have hreflect := reflect_comes (L := []) (K := []) hw identifier
    cases hans : w.answer identifier with
    | error f =>
      rw [hans] at hreflect
      exact Comes.agree (.bind_error hreflect.bind_error) trivial
    | ok c =>
      rw [hans] at hreflect
      have hfind : Comes (Within w [] []) (Target.named identifier).find (.ok (some c))
          (Within w [] []) := hreflect.bind_ok .pure
      exact hfind.bind_agree (h [] c (World.has_of_answer hans)) fun _ hs => hs
  | listed position =>
    -- listing keeps all classes, so a listed one is found again without its name
    have hfind : Comes (Within w [] []) (Target.listed position).find (.ok w.listed[position]?)
        (Within w [] (w.keys ++ [])) := (allClasses_comes hw).bind_ok .pure
    refine hfind.bind_agree ?_ fun _ hs => hs.mono fun _ h => by cases h
    cases hc : w.listed[position]? with
    | none => exact .pure trivial
    | some c => exact h _ c (has_of_mem_listed (List.mem_of_getElem? hc))

/-- A call comes to one outcome from all coherent stores, and leaves them coherent. -/
theorem Call.run_agree (hw : w.IsStatic) (call : Call) :
    Agree (Twin (Within w [] [])) (fun _ => True) call.run call.run := by
  have done {α : Type} {K : List String} {q : Query α} {good : Outcome α → Prop}
      (answer : α → Answer) (hq : Agree (Twin (Within w [] K)) good q q) :
      Agree (Twin (Within w [] K)) (fun _ => True) (do return answer (← q))
        (do return answer (← q)) :=
    hq.bind (fun _ _ => .pure trivial) fun _ _ => trivial
  cases call with
  | reflect identifier => exact done .found (reflect_agree hw identifier)
  | hasClass identifier => exact done .truth ((hasClass_comes hw identifier).agree rfl)
  | allClasses =>
    exact (allClasses_comes hw).bind_agree (.pure trivial) fun _ hs => hs.mono fun _ h => by cases h
  | properties t => exact t.ask_agree hw fun K c hc => done .properties (properties_agree hw hc)
  | property t name =>
    exact t.ask_agree hw fun K c hc => done .property (property_agree hw hc name)
  | constantValue t name =>
    refine t.ask_agree hw fun K c hc => done .value (constantValue_agree hw (p := fun _ => true)
      (fun _ _ => rfl) (.inl rfl) hc.1 name)
  | defaultValue t name =>
    refine t.ask_agree hw fun K c hc => ?_
    refine (property_agree hw hc name).bind (fun p hp => ?_) fun _ _ => trivial
    obtain ⟨o, ho⟩ := defaultValue_comes hw (hp p rfl)
    have hvalue : Agree (Twin (Within w [] K)) (fun _ => True) (Reflector.defaultValue p)
        (Reflector.defaultValue p) := ho.agree trivial
    exact done .value hvalue

/-- Stores stay coherent through calls. -/
theorem Store.Within.afterCalls (hw : w.IsStatic) {s : Store} (hs : s.Within w [] [])
    (calls : List Call) : (s.afterCalls calls).Within w [] [] := by
  induction calls generalizing s with
  | nil => exact hs
  | cons call rest ih => exact ih (call.run_agree hw s s ⟨hs, hs⟩).2.2.1

end

/-- Over sources that do not change, what a call comes to does not depend on the calls
before it, and an identifier is answered by the first class-like in source order with its
key; an identifier whose key is empty is answered by a failure. -/
theorem Store.outcome_afterCalls (w : World) (hw : w.IsStatic) (calls : List Call) :
    (∀ call : Call, outcome call.run ((ofWorld w).afterCalls calls)
        = outcome call.run (ofWorld w))
      ∧ ∀ identifier, outcome (Reflector.reflect identifier) ((ofWorld w).afterCalls calls)
        = w.answer identifier := by
  have hafter := within_ofWorld.afterCalls hw calls
  refine ⟨fun call => ?_, fun identifier => ?_⟩
  · exact (call.run_agree hw _ _ ⟨hafter, within_ofWorld⟩).1
  · exact (reflect_comes hw identifier _ hafter).1

/-! ## A class without a name -/

/-- The node where a name should stand in `class \x7b\x7d`. -/
def missingName : Node := ⟨"name", 11, 11, some "name", true, true, []⟩

/-- A declaration that lacks the name of its class. -/
def unnamedClass : Node :=
  ⟨"class_declaration", 6, 14, none, true, false,
    [⟨"class", 6, 11, none, false, false, []⟩, missingName,
      ⟨"declaration_list", 12, 14, some "body", true, false,
        [⟨"\x7b", 12, 13, none, false, false, []⟩, ⟨"\x7d", 13, 14, none, false, false, []⟩]⟩]⟩

/-- A world in which a class has no name. -/
def unnamedWorld : World :=
  ⟨FileTree.empty [],
    [("<?php class \x7b\x7d", ⟨"program", 0, 14, none, true, false,
      [⟨"php_tag", 0, 5, none, true, false, []⟩, unnamedClass]⟩)],
    [.text "<?php class \x7b\x7d" "<string>"], []⟩

/-- The class that has no name. -/
def unnamed : ReflectedClass :=
  ⟨⟨⟨unnamedClass, [⟨"php_tag", 0, 5, none, true, false, []⟩]⟩, .classKind, "", NameScope.empty⟩,
    unnamedWorld.trees.parse "<?php class \x7b\x7d" "<string>"⟩

theorem Source.slice_self (s : Source) (i : Nat) : s.slice i i = "" := by
  unfold slice
  rw [Array.extract_empty_of_stop_le_start (Nat.le_refl i)]
  rfl

theorem classes_unnamedWorld : unnamedWorld.classes = [unnamed] := by
  have hsources : unnamedWorld.sources = [unnamed.source] := rfl
  have hchildren : unnamed.source.root.children
      = [⟨"php_tag", 0, 5, none, true, false, []⟩, unnamedClass] := rfl
  have hclass (text : Node → String) : ClassLike.walk text
        [⟨"php_tag", 0, 5, none, true, false, []⟩] [unnamedClass] NameScope.empty
      = ([{ unnamed.classLike with shortName := text missingName }], []) := by
    rw [ClassLike.walk, ClassLike.walk]
    rfl
  have hwalk (text : Node → String) : ClassLike.walk text []
        [⟨"php_tag", 0, 5, none, true, false, []⟩, unnamedClass] NameScope.empty
      = ([{ unnamed.classLike with shortName := text missingName }], []) := by
    refine Eq.trans ?_ (hclass text)
    rw [ClassLike.walk]
    rfl
  have hname : unnamed.source.text missingName = "" := Source.slice_self _ 11
  rw [World.classes, hsources, List.flatMap_singleton, World.classesIn, ClassLike.all, hchildren,
    hwalk, hname]
  rfl

theorem isStatic_unnamedWorld : unnamedWorld.IsStatic := World.isStatic_of_text rfl

/-- The class without a name is the first whose key is that of the empty identifier, and
reflecting that identifier does not find it. -/
theorem unnamed_unanswered :
    unnamedWorld.IsStatic ∧ unnamedWorld.find? (Identifier.normalize "") = some unnamed
      ∧ outcome (Reflector.reflect "") (ofWorld unnamedWorld) = .error (.emptyIdentifier "") := by
  refine ⟨isStatic_unnamedWorld, ?_, rfl⟩
  rw [World.find?, classes_unnamedWorld]
  rfl

/-- Listing the class and asking for a constant of it changes nothing about that. -/
theorem outcome_afterCalls_unnamed :
    unnamedWorld.IsStatic
      ∧ outcome (Reflector.reflect "") ((ofWorld unnamedWorld).afterCalls
          [.allClasses, .constantValue (.listed 0) "X"]) = .error (.emptyIdentifier "") := by
  refine ⟨isStatic_unnamedWorld, ?_⟩
  rw [(Store.outcome_afterCalls unnamedWorld isStatic_unnamedWorld _).2 ""]
  rfl

end StaticReflection
