import StaticReflection.Proofs.Reflection.History

/-!
# Folds in progress

The constants that a store is folding are put back by every query, whatever it comes to
(`Query.Restores`). So while one fold is in progress, everything it comes upon happens in
a store that knows of it:

> `Visits.folding_suffix`, `Visits.folding_nodup`: however deep the references go, a fold
> that is in progress stays so, and none is in progress twice.

With that, and with the fuel that suffices for every search, constants have values, or
reasons why not, in every world in which no class is its own ancestor:

> `Store.constants_end`: no constant and no default value comes to a failure without end.
-/

namespace StaticReflection

open Folding Outcome Reflector Store

/-- A query that puts the constants being folded back to what they were. -/
def Query.Restores {α : Type} (q : Query α) : Prop :=
  ∀ L, Preserves (fun s : Store => s.folding = L) q

/-! ## Every query restores -/

theorem Store.lasting_true : Store.Lasting fun _ => True :=
  ⟨⟨fun _ _ h => h, fun _ _ _ h => h, fun _ _ _ h => h⟩, fun _ _ _ _ _ h => h,
    fun _ _ _ h => h, fun _ _ _ h => h, fun _ _ h => h⟩

theorem Query.Maintains.restores {α : Type} {q : Query α}
    (h : q.Maintains fun _ => True) : q.Restores := fun L s hs => (h L s ⟨trivial, hs⟩).2

theorem reflect_restores (identifier : String) : (reflect identifier).Restores :=
  (reflect_maintains lasting_true.toSteady identifier).restores

theorem parent_restores (c : ReflectedClass) : (parent c).Restores :=
  (parent_maintains lasting_true.toSteady c).restores

theorem constantValue_restores (c : ReflectedClass) (name : String) :
    (constantValue c name).Restores := (constantValue_maintains lasting_true c name).restores

theorem defaultValue_restores (p : Property) : (defaultValue p).Restores :=
  (defaultValue_maintains lasting_true p).restores

/-! ## What a fold comes upon -/

/-- A request for the value of a constant of a class, with fuel that is given or with what
the store gives. -/
def requestWith (fuel? : Option Nat) (c : ReflectedClass) (name : String) : Query Value :=
  match fuel? with
  | some fuel => constantWithin fuel [] c name
  | none => constantValue c name

/-- What expressions of a source that stands in a class are folded with. -/
def folderWith (fuel? : Option Nat) (c : ReflectedClass) (source : ParsedSource)
    (magic : List (String × Value)) : Folder Store :=
  folder c source (resolveConstantWith (requestWith fuel?) c) magic

/-- A reference in a class leads from a store to a class, and to the store after it. -/
inductive Refers (c : ReflectedClass) (scope : String) : Store → ReflectedClass → Store → Prop
  | itself {s : Store} (h : LetterCase.lower scope = "self" ∨ LetterCase.lower scope = "static") :
      Refers c scope s c s
  | parent {s : Store} {d : ReflectedClass} (h : LetterCase.lower scope = "parent")
      (hd : outcome (Reflector.parent c) s = .ok (some d)) :
      Refers c scope s d (after (Reflector.parent c) s)
  | named {s : Store} {d : ReflectedClass}
      (h : ¬NameScope.relativeWords.contains (LetterCase.lower scope) = true)
      (hd : outcome (reflect (c.resolveName scope)) s = .ok d) :
      Refers c scope s d (after (reflect (c.resolveName scope)) s)

/-- What is set going: the fold of an expression in a class, or a request for a constant. -/
inductive Task where
  | fold (fuel? : Option Nat) (c : ReflectedClass) (source : ParsedSource)
      (magic : List (String × Value)) (n : Node)
  | constant (fuel : Nat) (searched : List String) (c : ReflectedClass) (name : String)

/-- A task that begins in a store comes, through any references, to fold an expression from
a store. -/
inductive Visits : Task → Store → Node → Store → Prop
  | operand {fuel? : Option Nat} {c : ReflectedClass} {source : ParsedSource}
      {magic : List (String × Value)} {n m : Node} {s t : Store}
      (h : (folderWith fuel? c source magic).Reaches n s m t) :
      Visits (.fold fuel? c source magic n) s m t
  | reference {fuel? : Option Nat} {c d : ReflectedClass} {source : ParsedSource}
      {magic : List (String × Value)} {n m k : Node} {s t u v : Store} {scope constant : String}
      (h : (folderWith fuel? c source magic).Reaches n s m t)
      (hm : (folderWith fuel? c source magic).plan m = .constant scope constant)
      (hname : ¬asksForName constant = true) (hd : Refers c scope t d u)
      (hv : Visits (.constant (fuel?.getD u.depth) [] d constant) u k v) :
      Visits (.fold fuel? c source magic n) s k v
  | own {fuel : Nat} {searched : List String} {c : ReflectedClass} {name : String}
      {d : ConstantDeclaration} {m : Node} {s t : Store} (hd : c.constant? name = some d)
      (hfree : ¬s.folding.contains (c.key, name) = true)
      (hv : Visits (.fold (some fuel) c c.source [] d.value) (s.enter (c.key, name)) m t) :
      Visits (.constant (fuel + 1) searched c name) s m t
  /-- The relatives before were passed over. -/
  | inherited {fuel : Nat} {searched before rest : List String} {c d : ReflectedClass}
      {name relative : String} {m : Node} {s t u : Store} (hd : c.constant? name = none)
      (hnew : ¬searched.contains c.key = true)
      (hnames : c.relatedNames = before ++ relative :: rest)
      (hpassed : outcome (firstRelative (fun r => constantWithin fuel (c.key :: searched) r name)
        (.unfoldable (.constantNotLocated c.name name)) before) s
          = .error (.unfoldable (.constantNotLocated c.name name)))
      (hbefore : after (firstRelative (fun r => constantWithin fuel (c.key :: searched) r name)
        (.unfoldable (.constantNotLocated c.name name)) before) s = u)
      (hr : outcome (reflect relative) u = .ok d)
      (hv : Visits (.constant fuel (c.key :: searched) d name) (after (reflect relative) u) m t) :
      Visits (.constant (fuel + 1) searched c name) s m t

theorem requestWith_maintains {P : Store → Prop} (hP : Store.Lasting P) (fuel? : Option Nat)
    (c : ReflectedClass) (name : String) : (requestWith fuel? c name).Maintains P := by
  cases fuel? with
  | none => exact constantValue_maintains hP c name
  | some fuel => exact constantWithin_maintains hP fuel [] c name

/-- An expression that a fold reaches is folded while the same constants are being folded. -/
theorem reaches_restores {fuel? : Option Nat} {c : ReflectedClass} {source : ParsedSource}
    {magic : List (String × Value)} {n m : Node} {s t : Store}
    (h : (folderWith fuel? c source magic).Reaches n s m t) : t.folding = s.folding := by
  have hresolve (scope constant : String) :=
    resolveConstantWith_maintains lasting_true (requestWith_maintains lasting_true fuel?) c scope
      constant
  refine h.preserves (P := fun t => t.folding = s.folding) (fun k => ?_) rfl
  exact Folder.fold_preserves (fun scope constant => (hresolve scope constant).restores s.folding)
    (folderWith fuel? c source magic) k

theorem Refers.folding {c d : ReflectedClass} {scope : String} {s t : Store}
    (h : Refers c scope s d t) : t.folding = s.folding := by
  cases h with
  | itself _ => rfl
  | parent _ _ => exact parent_restores c _ s rfl
  | named _ => exact reflect_restores _ _ s rfl

/-- When a relative is found after others were passed over, the same constants are being
folded as at the start. -/
theorem relative_restores (fuel : Nat) (searched before : List String) (name relative : String)
    (failure : Failure) (s : Store) :
    (after (reflect relative) (after (firstRelative (fun r => constantWithin fuel searched r name)
      failure before) s)).folding = s.folding := by
  have hpassed : (after (firstRelative (fun r => constantWithin fuel searched r name)
      failure before) s).folding = s.folding :=
    (firstRelative_maintains lasting_true
      (fun d => constantWithin_maintains lasting_true fuel searched d name) before).restores _ s rfl
  exact reflect_restores relative s.folding _ hpassed

/-- Folds that are in progress stay so while anything that they set going is folded. -/
theorem Visits.folding_suffix {task : Task} {m : Node} {s t : Store} (h : Visits task s m t) :
    s.folding <:+ t.folding := by
  induction h with
  | operand h => exact (reaches_restores h).symm ▸ List.suffix_refl _
  | reference h _ _ hd _ ih => rw [← reaches_restores h, ← hd.folding]; exact ih
  | own _ _ _ ih => exact (List.suffix_cons _ _).trans ih
  | inherited _ _ _ _ hbefore _ _ ih =>
    -- the relatives that were passed over have put back what they folded
    subst hbefore
    rw [relative_restores] at ih
    exact ih

/-- No constant is ever being folded twice. -/
theorem Visits.folding_nodup {task : Task} {m : Node} {s t : Store} (h : Visits task s m t)
    (hs : s.folding.Nodup) : t.folding.Nodup := by
  induction h with
  | operand h => rw [reaches_restores h]; exact hs
  | reference h _ _ hd _ ih =>
    apply ih
    rw [hd.folding, reaches_restores h]
    exact hs
  | own _ hfree _ ih =>
    exact ih (List.nodup_cons.mpr ⟨fun hmem => hfree (List.contains_iff_mem.mpr hmem), hs⟩)
  | inherited _ _ _ _ hbefore _ _ ih =>
    subst hbefore
    apply ih
    rw [relative_restores]
    exact hs

/-! ## No failure without end -/

/-- A store after some calls, amid the folds of some constants. -/
def Store.amid (w : World) (calls : List Call) (L : List ConstantKey) : Store :=
  { (ofWorld w).afterCalls calls with folding := L }

theorem Store.within_amid {w : World} (hw : w.IsStatic) (calls : List Call)
    (L : List ConstantKey) :
    (amid w calls L).Within w L ((amid w calls L).classes.map (·.1)) := by
  have hcoherent := (within_ofWorld.afterCalls hw calls).coherent
  have hwithin : (amid w calls L).Within w L [] :=
    ⟨hcoherent.refold L, rfl, fun k hk => absurd hk List.not_mem_nil⟩
  exact hwithin.keys

/-- A request for a constant that is being folded is refused, and changes nothing. -/
theorem constantWithin_busy {fuel : Nat} {searched : List String} {c : ReflectedClass}
    {name : String} {s : Store} (hd : (c.constant? name).isSome = true)
    (h : s.folding.contains (c.key, name) = true) :
    outcome (constantWithin (fuel + 1) searched c name) s
        = .error (.unfoldable (.selfReference c.name name))
      ∧ after (constantWithin (fuel + 1) searched c name) s = s := by
  obtain ⟨d, hd⟩ := Option.isSome_iff_exists.mp hd
  unfold constantWithin
  rw [hd]
  exact whileFolding_busy h

theorem outcome_constantValue (c : ReflectedClass) (name : String) (s : Store) :
    outcome (constantValue c name) s = outcome (constantWithin s.depth [] c name) s :=
  (depth_bind _ s).1

/-- The default value of an owned property does not fail without end. -/
theorem defaultValue_ends {w : World} {L : List ConstantKey} {K : List String} {s : Store}
    (hw : w.IsStatic) (hacyclic : w.IsAcyclic) {p : Property} (hp : w.Owns K p)
    (hs : s.Within w L K) : (outcome (defaultValue p) s).FailsOnly Failure.ends := by
  obtain ⟨c, ds, d, hc, _, _, rfl⟩ := hp
  unfold defaultValue
  cases (Property.ofClass c d).declaration.default with
  | none => exact failsOnly_ok
  | some e =>
    simp only
    rw [outcome_bind_ok (outcome_get s), after_get]
    split
    · exact failsOnly_ok
    · obtain ⟨hclass, ht⟩ := declaringClass_comes hw hc d s hs
      have hfold := (foldDefault_agree hw (p := Failure.ends) (fun _ h => h) (.inr hacyclic) hc.1 e
        _ _ ⟨ht, ht⟩).2.1
      rw [outcome_bind_ok hclass, outcome_bind]
      split
      · exact failsOnly_ok
      next f hf => exact failsOnly_error (hfold f hf)

/-- Over sources that do not change, and in which no class inherits from itself, every
constant of every class and every default value comes to an end, after any calls and amid
any folds: more fuel than the store gives makes no difference, the folds in progress are
put back, a constant that is being folded is refused, and none is ever folded twice. -/
theorem Store.constants_end (w : World) (hw : w.IsStatic) (hacyclic : w.IsAcyclic)
    (calls : List Call) (L : List ConstantKey) :
    (∀ c name, w.find? c.key = some c →
        outcome (constantValue c name) (amid w calls L) ≠ Outcome.endless
          ∧ (∀ fuel, (amid w calls L).depth ≤ fuel →
            outcome (constantWithin fuel [] c name) (amid w calls L)
              = outcome (constantValue c name) (amid w calls L))
          ∧ (after (constantValue c name) (amid w calls L)).folding = L)
      ∧ (∀ p, w.Owns ((amid w calls L).classes.map (·.1)) p →
        outcome (defaultValue p) (amid w calls L) ≠ Outcome.endless
          ∧ (after (defaultValue p) (amid w calls L)).folding = L)
      ∧ (∀ fuel searched c name, (c.constant? name).isSome = true → (c.key, name) ∈ L →
        outcome (constantWithin (fuel + 1) searched c name) (amid w calls L)
            = .error (.unfoldable (.selfReference c.name name))
          ∧ after (constantWithin (fuel + 1) searched c name) (amid w calls L) = amid w calls L)
      ∧ (L.Nodup → ∀ task m t, Visits task (amid w calls L) m t →
        t.folding.Nodup ∧ L <:+ t.folding) := by
  have hs := within_amid hw calls L
  refine ⟨fun c name hc => ?_, fun p hp => ?_, fun fuel searched c name hd hL => ?_,
    fun hL task m t h => ⟨h.folding_nodup hL, h.folding_suffix⟩⟩
  · have hbound := hs.coherent.bound_lt_depth L []
    have hwithin (fuel : Nat) (hfuel : (amid w calls L).depth ≤ fuel) :
        AgreeAt (Twin (Within w L ((amid w calls L).classes.map (·.1)))) (FailsOnly Failure.ends)
          (constantWithin fuel [] c name) (constantWithin (amid w calls L).depth [] c name)
          (amid w calls L) (amid w calls L) :=
      constantWithin_agree hw (fun _ h => h) (.inr hacyclic) hc
        (Nat.lt_of_lt_of_le hbound hfuel) hbound .nil .nil _ _ ⟨hs, hs⟩
    rw [outcome_constantValue]
    refine ⟨(hwithin _ (Nat.le_refl _)).2.1.ne_endless, fun fuel hfuel => ?_, ?_⟩
    · exact (hwithin fuel hfuel).1
    · exact constantValue_restores c name L _ hs.folding
  · exact ⟨(defaultValue_ends hw hacyclic hp hs).ne_endless, defaultValue_restores p L _ hs.folding⟩
  · have hbusy : (amid w calls L).folding.contains (c.key, name) = true :=
      List.contains_iff_mem.mpr hL
    exact constantWithin_busy hd hbusy

/-! ## A constant that refers to itself -/

/-- A text with a class whose only constant refers to itself. -/
def circularText : String := "<?php class A \x7b const X = self::X; \x7d"

/-- The declaration in `circularText`. -/
def circularClass : Node :=
  ⟨"class_declaration", 6, 36, none, true, false,
    [⟨"class", 6, 11, none, false, false, []⟩, ⟨"name", 12, 13, some "name", true, false, []⟩,
      ⟨"declaration_list", 14, 36, some "body", true, false,
        [⟨"const_declaration", 16, 34, none, true, false,
          [⟨"const_element", 22, 33, none, true, false,
            [⟨"name", 22, 23, none, true, false, []⟩,
              ⟨"class_constant_access_expression", 26, 33, none, true, false,
                [⟨"name", 26, 30, none, true, false, []⟩,
                  ⟨"name", 32, 33, none, true, false, []⟩]⟩]⟩]⟩]⟩]⟩

/-- A world with nothing but that class. -/
def circularWorld : World :=
  ⟨FileTree.empty [], [(circularText, ⟨"program", 0, 36, none, true, false, [circularClass]⟩)],
    [.text circularText "<string>"], []⟩

/-- The class in that world. -/
def circular : ReflectedClass :=
  ⟨⟨⟨circularClass, []⟩, .classKind, "A", NameScope.empty⟩,
    circularWorld.trees.parse circularText "<string>"⟩

theorem classes_circularWorld : circularWorld.classes = [circular] := by
  have hsources : circularWorld.sources = [circular.source] := rfl
  have hchildren : circular.source.root.children = [circularClass] := rfl
  have hwalk : ClassLike.all circular.source = [circular.classLike] := by
    rw [ClassLike.all, hchildren, ClassLike.walk, ClassLike.walk]
    rfl
  rw [World.classes, hsources, List.flatMap_singleton, World.classesIn, hwalk]
  rfl

theorem isStatic_circularWorld : circularWorld.IsStatic := World.isStatic_of_text rfl

theorem isAcyclic_circularWorld : circularWorld.IsAcyclic := by
  refine World.isAcyclic_of_rank (fun _ => 0) fun c hc d hstep => ?_
  rw [classes_circularWorld] at hc
  obtain rfl := List.mem_singleton.mp hc
  -- the only class has no relatives
  obtain ⟨name, hname, _⟩ := hstep
  have hempty : circular.relatedNames = [] := rfl
  rw [hempty] at hname
  cases hname

/-- The constant that refers to itself comes to an end, asked for twice. -/
theorem constants_end_circular :
    circularWorld.IsStatic ∧ circularWorld.IsAcyclic
      ∧ circularWorld.find? circular.key = some circular
      ∧ (circular.constant? "X").isSome = true
      ∧ outcome (constantValue circular "X")
          (amid circularWorld [.constantValue (.named "A") "X"] []) ≠ Outcome.endless := by
  have hfind : circularWorld.find? circular.key = some circular := by
    rw [World.find?, classes_circularWorld]
    rfl
  refine ⟨isStatic_circularWorld, isAcyclic_circularWorld, hfind, rfl, ?_⟩
  exact ((constants_end circularWorld isStatic_circularWorld isAcyclic_circularWorld
    [.constantValue (.named "A") "X"] []).1 circular "X" hfind).1

end StaticReflection
