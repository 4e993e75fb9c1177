import StaticReflection.Proofs.Reflection.History
import StaticReflection.Proofs.Reflection.Steps

/-!
# What stays in a store

Classes and gathered properties are added to a store and not taken out again, whatever the
locators answer. So what a query found in a store it finds in every later one:

> `Store.Lasting.afterEvents`: a lasting property of stores holds after any calls, changes
> of the world and changes of visibilities.

`Store.KeptIn` is such a property. `Store.Settles` says that a store keeps all that a walk
through the ancestors asks of a class; the queries about a settled class come to what the
store keeps, and leave it as it is.
-/

namespace StaticReflection

open Folding Outcome Reflector Store

/-! ## What stores keep -/

/-- Classes are kept under their keys, and with a class one property of each name. -/
structure Store.Filed (s : Store) : Prop where
  classes : ∀ k c, s.classes.lookup k = some c → c.key = k
  declared : ∀ k ds, s.declared.lookup k = some ds → (ds.map (·.name)).Nodup

/-- The classes and the properties that a store keeps, another keeps too. -/
structure Store.KeptIn (s t : Store) : Prop where
  classes : ∀ k c, s.classes.lookup k = some c → t.classes.lookup k = some c
  declared : ∀ k ds, s.declared.lookup k = some ds → t.declared.lookup k = some ds

/-- What a store keeps once all that a walk asks of a class has been asked. -/
structure Store.Settles (s : Store) (c : ReflectedClass) : Prop where
  kept : s.classes.lookup c.key = some c
  declared : (s.declared.lookup c.key).isSome = true
  parent : ∀ name, c.parentName? = some name → (Identifier.normalize name).isEmpty = false
    ∧ (s.classes.lookup (Identifier.normalize name)).isSome = true

/-- The properties of its own that a store keeps for a class. -/
def Store.own (s : Store) (c : ReflectedClass) : List Property :=
  ((s.declared.lookup c.key).getD []).map (Property.ofClass c)

namespace Store

variable {s t u : Store}

theorem KeptIn.refl : s.KeptIn s := ⟨fun _ _ h => h, fun _ _ h => h⟩

theorem KeptIn.trans (h : s.KeptIn t) (h' : t.KeptIn u) : s.KeptIn u :=
  ⟨fun k c hk => h'.classes k c (h.classes k c hk),
    fun k ds hk => h'.declared k ds (h.declared k ds hk)⟩

theorem lookup_append_of_some {α : Type} {ps more : List (String × α)} {k : String} {v : α}
    (h : ps.lookup k = some v) : (ps ++ more).lookup k = some v := by
  rw [List.lookup_append, h, Option.some_or]

/-- What is kept stays, whatever is asked. -/
theorem lasting_keptIn (s : Store) : Lasting s.KeptIn where
  world _ _ h := ⟨h.classes, h.declared⟩
  parsed _ _ _ h := ⟨h.classes, h.declared⟩
  classes _ _ _ h := ⟨fun k d hk => lookup_append_of_some (h.classes k d hk), h.declared⟩
  declared _ _ _ _ _ h := ⟨h.classes, fun k ds hk => lookup_append_of_some (h.declared k ds hk)⟩
  visibilities _ _ _ h := ⟨h.classes, h.declared⟩
  defaults _ _ _ h := ⟨h.classes, h.declared⟩
  folding _ _ h := ⟨h.classes, h.declared⟩

theorem lasting_filed : Lasting Filed where
  world _ _ h := ⟨h.classes, h.declared⟩
  parsed _ _ _ h := ⟨h.classes, h.declared⟩
  classes _ _ _ h := by
    refine ⟨fun k d hk => ?_, h.declared⟩
    rcases lookup_append_cases hk with hk | ⟨rfl, rfl⟩
    · exact h.classes k d hk
    · rfl
  declared _ _ _ _ hnodup h := by
    refine ⟨h.classes, fun k ds hk => ?_⟩
    rcases lookup_append_cases hk with hk | ⟨rfl, rfl⟩
    · exact h.declared k ds hk
    · exact hnodup
  visibilities _ _ _ h := ⟨h.classes, h.declared⟩
  defaults _ _ _ h := ⟨h.classes, h.declared⟩
  folding _ _ h := ⟨h.classes, h.declared⟩

theorem filed_ofWorld (w : World) : (ofWorld w).Filed :=
  ⟨fun _ _ h => by (cases h), fun _ _ h => by (cases h)⟩

theorem Settles.mono {c : ReflectedClass} (h : s.Settles c) (ht : s.KeptIn t) : t.Settles c := by
  refine ⟨ht.classes _ _ h.kept, ?_, fun name hname => ⟨(h.parent name hname).1, ?_⟩⟩
  · obtain ⟨ds, hds⟩ := Option.isSome_iff_exists.mp h.declared
    exact Option.isSome_iff_exists.mpr ⟨ds, ht.declared _ _ hds⟩
  · obtain ⟨d, hd⟩ := Option.isSome_iff_exists.mp (h.parent name hname).2
    exact Option.isSome_iff_exists.mpr ⟨d, ht.classes _ _ hd⟩

theorem own_eq {c : ReflectedClass} {ds : List PropertyDeclaration}
    (h : s.declared.lookup c.key = some ds) : s.own c = ds.map (Property.ofClass c) := by
  rw [own, h, Option.getD_some]

theorem own_names_nodup (hs : s.Filed) (c : ReflectedClass) : ((s.own c).map (·.name)).Nodup := by
  cases h : s.declared.lookup c.key with
  | none =>
    rw [own, h]
    exact List.nodup_nil
  | some ds =>
    rw [own_eq h, List.map_map]
    exact hs.declared _ _ h

end Store

theorem Query.Maintains.holds {α : Type} {P : Store → Prop} {q : Query α} {s : Store}
    (h : q.Maintains P) (hs : P s) : P (after q s) := (h s.folding s ⟨hs, rfl⟩).1

/-! ## What queries leave behind -/

section

variable {s : Store}

theorem keep_kept {c d : ReflectedClass} (h : outcome (keep c) s = .ok d) :
    (after (keep c) s).classes.lookup c.key = some d := by
  unfold keep at h ⊢
  rw [outcome_bind_ok (outcome_get s), after_get] at h
  rw [after_bind_ok (outcome_get s), after_get]
  cases hc : s.classes.lookup c.key with
  | some known =>
    rw [hc] at h
    cases h
    exact hc
  | none =>
    rw [hc] at h
    cases h
    show (s.classes ++ [(c.key, c)]).lookup c.key = some c
    rw [List.lookup_append, hc, Option.none_or, List.lookup_cons_self]

theorem search_kept {key identifier : String} {positions : List Nat} {c : ReflectedClass}
    (h : outcome (search key identifier positions) s = .ok (some c)) :
    (after (search key identifier positions) s).classes.lookup key = some c := by
  induction positions generalizing s with
  | nil => cases h
  | cons i rest ih =>
    unfold search at h ⊢
    obtain ⟨located, hlocated, h⟩ := exists_of_bind_ok h
    rw [after_bind_ok hlocated]
    cases located with
    | none => exact ih h
    | some located =>
      obtain ⟨p, hp, h⟩ := exists_of_bind_ok h
      simp only
      rw [after_bind_ok hp]
      cases hfound : findIn p key with
      | none =>
        rw [hfound] at h
        exact ih h
      | some d =>
        rw [hfound] at h
        obtain ⟨e, he, h⟩ := exists_of_bind_ok h
        cases h
        have hkey : d.key = key := by
          rw [findIn_eq] at hfound
          have := List.find?_some hfound
          exact eq_of_beq this
        simp only
        rw [after_bind_ok he, after_pure, ← hkey]
        exact keep_kept he

theorem reflect_lookup {identifier : String}
    (hempty : (Identifier.normalize identifier).isEmpty = false) :
    reflect identifier = (do
      match (← get).classes.lookup (Identifier.normalize identifier) with
      | some known => return known
      | none => do
        let positions ← Query.locating World.positions
        match ← search (Identifier.normalize identifier) (Identifier.trimmed identifier) positions with
        | some c => return c
        | none => throw (.classNotFound identifier)) := by
  unfold reflect
  simp only
  exact (if_neg (Bool.eq_false_iff.mp hempty)).trans rfl

theorem normalize_of_reflect {identifier : String} {c : ReflectedClass}
    (h : outcome (reflect identifier) s = .ok c) :
    (Identifier.normalize identifier).isEmpty = false := by
  rw [← Bool.not_eq_true]
  intro hempty
  unfold reflect at h
  simp only at h
  rw [if_pos hempty] at h
  cases h

/-- A class that is reflected is kept under the key of its identifier. -/
theorem reflect_kept {identifier : String} {c : ReflectedClass}
    (h : outcome (reflect identifier) s = .ok c) :
    (after (reflect identifier) s).classes.lookup (Identifier.normalize identifier) = some c := by
  have hempty := normalize_of_reflect h
  rw [reflect_lookup hempty] at h ⊢
  rw [outcome_bind_ok (outcome_get s), after_get] at h
  rw [after_bind_ok (outcome_get s), after_get]
  cases hc : s.classes.lookup (Identifier.normalize identifier) with
  | some known =>
    rw [hc] at h
    cases h
    exact hc
  | none =>
    rw [hc] at h
    obtain ⟨positions, hpositions, h⟩ := exists_of_bind_ok h
    obtain ⟨found, hfound, h⟩ := exists_of_bind_ok h
    simp only
    rw [after_bind_ok hpositions, after_bind_ok hfound]
    cases found with
    | none => cases h
    | some d =>
      cases h
      exact search_kept hfound

/-- The properties of a class that come to a list are kept under its key. -/
theorem declaredWithin_kept {fuel : Nat} {active : List String} {c : ReflectedClass}
    {ds : List PropertyDeclaration} (h : outcome (declaredWithin fuel active c) s = .ok ds) :
    (after (declaredWithin fuel active c) s).declared.lookup c.key = some ds := by
  cases fuel with
  | zero => cases h
  | succ fuel =>
    unfold declaredWithin at h ⊢
    rw [outcome_bind_ok (outcome_get s), after_get] at h
    rw [after_bind_ok (outcome_get s), after_get]
    cases hkept : s.declared.lookup c.key with
    | some known =>
      rw [hkept] at h
      cases h
      exact hkept
    | none =>
      rw [hkept] at h
      by_cases hactive : active.contains c.key = true
      · simp only at h
        rw [if_pos hactive] at h
        cases h
      · simp only at h ⊢
        rw [if_neg hactive] at h ⊢
        obtain ⟨es, hes, h⟩ := exists_of_bind_ok h
        cases h
        -- the class is not added on the way, so what is added now is what is found
        have hgather : (gather (declaredWithin fuel (c.key :: active)) c).Maintains
            fun s => s.declared.lookup c.key = none :=
          gather_maintains (Store.steady_unlisted c.key)
            (fun d => declaredWithin_unlisted (List.mem_cons_self ..) d) c
        have hnew := hgather.holds hkept
        rw [after_bind_ok hes]
        show (_ ++ [(c.key, ds)]).lookup c.key = some ds
        rw [List.lookup_append, hnew, Option.none_or, List.lookup_cons_self]

theorem immediateProperties_kept {c : ReflectedClass} {ps : List Property}
    (h : outcome (immediateProperties c) s = .ok ps) :
    ((after (immediateProperties c) s).declared.lookup c.key).isSome = true
      ∧ ps = (after (immediateProperties c) s).own c := by
  obtain ⟨ds, hds, h⟩ := exists_of_bind_ok h
  cases h
  have hkept : (after (Reflector.declared c) s).declared.lookup c.key = some ds := by
    unfold Reflector.declared at hds ⊢
    rw [(depth_bind _ s).1] at hds
    rw [(depth_bind _ s).2]
    exact declaredWithin_kept hds
  have hafter : after (immediateProperties c) s = after (Reflector.declared c) s := after_bind_ok hds
  rw [hafter, Store.own_eq hkept, hkept]
  exact ⟨rfl, rfl⟩

/-! ## Queries about settled classes -/

theorem reflect_settled {identifier : String} {c : ReflectedClass}
    (hempty : (Identifier.normalize identifier).isEmpty = false)
    (h : s.classes.lookup (Identifier.normalize identifier) = some c) :
    outcome (reflect identifier) s = .ok c ∧ after (reflect identifier) s = s := by
  rw [reflect_lookup hempty, outcome_bind_ok (outcome_get s), after_bind_ok (outcome_get s),
    after_get, h]
  exact ⟨rfl, rfl⟩

theorem Store.Settles.immediateProperties {c : ReflectedClass} (h : s.Settles c) :
    outcome (immediateProperties c) s = .ok (s.own c) ∧ after (immediateProperties c) s = s := by
  obtain ⟨ds, hds⟩ := Option.isSome_iff_exists.mp h.declared
  have hdeclared : outcome (Reflector.declared c) s = .ok ds ∧ after (Reflector.declared c) s = s := by
    obtain ⟨fuel, hfuel⟩ := Nat.exists_eq_add_one.mpr s.depth_pos
    unfold Reflector.declared
    rw [(depth_bind _ s).1, (depth_bind _ s).2, hfuel, declaredWithin,
      outcome_bind_ok (outcome_get s), after_bind_ok (outcome_get s), after_get, hds]
    exact ⟨rfl, rfl⟩
  unfold Reflector.immediateProperties
  rw [outcome_bind_ok hdeclared.1, after_bind_ok hdeclared.1, hdeclared.2, Store.own_eq hds]
  exact ⟨rfl, rfl⟩

theorem parent_rootless {c : ReflectedClass} (h : c.parentName? = none) :
    outcome (parent c) s = .ok none ∧ after (parent c) s = s := by
  unfold parent
  rw [h]
  exact ⟨rfl, rfl⟩

theorem parent_named {c : ReflectedClass} {name : String} (h : c.parentName? = some name) :
    parent c = (do return some (← reflect name)) := by
  unfold parent
  rw [h]

theorem parent_settled {c d : ReflectedClass} {name : String} (h : c.parentName? = some name)
    (hempty : (Identifier.normalize name).isEmpty = false)
    (hd : s.classes.lookup (Identifier.normalize name) = some d) :
    outcome (parent c) s = .ok (some d) ∧ after (parent c) s = s := by
  have hreflect := reflect_settled hempty hd
  rw [parent_named h, outcome_bind_ok hreflect.1, after_bind_ok hreflect.1, hreflect.2]
  exact ⟨rfl, rfl⟩

/-- The parent of a settled class is the same in every later store. -/
theorem Store.Settles.parent_comes {c : ReflectedClass} (h : s.Settles c) :
    Comes s.KeptIn (Reflector.parent c) (outcome (Reflector.parent c) s) s.KeptIn := by
  intro t ht
  cases hname : c.parentName? with
  | none =>
    rw [(parent_rootless hname).1, (parent_rootless hname).1, (parent_rootless hname).2]
    exact ⟨rfl, ht⟩
  | some name =>
    obtain ⟨hempty, hsome⟩ := h.parent name hname
    obtain ⟨d, hd⟩ := Option.isSome_iff_exists.mp hsome
    rw [(parent_settled hname hempty hd).1, (parent_settled hname hempty (ht.classes _ _ hd)).1,
      (parent_settled hname hempty (ht.classes _ _ hd)).2]
    exact ⟨rfl, ht⟩

/-- A parent that was found is kept under the key of its name. -/
theorem parent_ok_cases {c : ReflectedClass} {next : Option ReflectedClass}
    (h : outcome (parent c) s = .ok next) :
    (c.parentName? = none ∧ next = none)
      ∨ ∃ name d, c.parentName? = some name ∧ next = some d
        ∧ (Identifier.normalize name).isEmpty = false
        ∧ (after (parent c) s).classes.lookup (Identifier.normalize name) = some d := by
  cases hname : c.parentName? with
  | none =>
    rw [(parent_rootless hname).1] at h
    cases h
    exact .inl ⟨rfl, rfl⟩
  | some name =>
    rw [parent_named hname] at h ⊢
    obtain ⟨d, hd, h⟩ := exists_of_bind_ok h
    cases h
    have hkept := reflect_kept hd
    rw [after_bind_ok hd, after_pure]
    exact .inr ⟨name, d, rfl, rfl, normalize_of_reflect hd, hkept⟩

end

/-! ## What may happen to a store -/

/-- Something that happens to a store: a call, another world, or the change of a property's
visibility. -/
inductive Event where
  | call (call : Call)
  | world (w : World)
  | visibility (p : Property) (value : Json)

/-- The store after something happened to it. -/
def Event.apply (s : Store) : Event → Store
  | .call c => after c.run s
  | .world w => { s with world := w }
  | .visibility p v => after (p.setVisibility v) s

/-- A store after some things happened to it. -/
def Store.afterEvents (s : Store) (events : List Event) : Store := events.foldl Event.apply s

section

variable {P : Store → Prop} (hP : Store.Lasting P)
include hP

theorem Target.ask_maintains {query : ReflectedClass → Query Answer}
    (h : ∀ c, (query c).Maintains P) (t : Target) : (t.ask query).Maintains P := by
  have hfind : t.find.Maintains P := by
    cases t with
    | named identifier => exact (reflect_maintains hP.toSteady identifier).bind fun _ => .pure
    | listed position => exact (allClasses_maintains hP.toSteady).bind fun _ => .pure
  refine hfind.bind fun found => ?_
  cases found with
  | none => exact .pure
  | some c => exact h c

theorem Call.run_maintains (call : Call) : call.run.Maintains P := by
  cases call with
  | reflect identifier => exact (reflect_maintains hP.toSteady identifier).bind fun _ => .pure
  | hasClass identifier => exact (hasClass_maintains hP.toSteady identifier).bind fun _ => .pure
  | allClasses => exact (allClasses_maintains hP.toSteady).bind fun _ => .pure
  | properties t => exact t.ask_maintains hP fun c => (properties_maintains hP c).bind fun _ => .pure
  | property t name =>
    exact t.ask_maintains hP fun c => (property_maintains hP c name).bind fun _ => .pure
  | constantValue t name =>
    exact t.ask_maintains hP fun c => (constantValue_maintains hP c name).bind fun _ => .pure
  | defaultValue t name =>
    exact t.ask_maintains hP fun c => (property_maintains hP c name).bind fun p =>
      (defaultValue_maintains hP p).bind fun _ => .pure

/-- A lasting property holds whatever happens. -/
theorem Store.Lasting.afterEvents {s : Store} (hs : P s) (events : List Event) :
    P (s.afterEvents events) := by
  induction events generalizing s with
  | nil => exact hs
  | cons event rest ih =>
    refine ih ?_
    cases event with
    | call call => exact (call.run_maintains hP).holds hs
    | world w => exact hP.world s w hs
    | visibility p value => exact (setVisibility_maintains hP p value).holds hs

end

end StaticReflection
