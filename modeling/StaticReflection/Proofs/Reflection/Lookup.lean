import StaticReflection.Proofs.Reflection.Ancestry
import StaticReflection.Proofs.Reflection.Settled

/-!
# Looking properties up

The property of a name is looked for in a class and its ancestors and the search stops at
the first that has it; the list of all properties goes through all of them. The two walks
agree, whatever the locators do, since a class whose list of properties came to an end has
left all that the walk needs in the store, where it stays:

> `Store.properties_lookup`: once the properties of a class are listed, and in any store
> later on, a property is found exactly if it is in the list, and it is the one in the
> list; the class that has it is the nearest one with a property of its name.

A walk leaves every class that it came through settled (`Store.Settles`), in a store of
which later ones keep all that matters (`Store.Walked`).
-/

namespace StaticReflection

open Folding Outcome Reflector Store

/-! ## Lists of properties -/

section

variable {ps more : List Property}

/-- What has a name in a list with another behind it. -/
theorem find?_shadow (ps more : List Property) (name : String) :
    (shadow ps more).find? (fun p => p.name == name)
      = (ps.find? fun p => p.name == name).or (more.find? fun p => p.name == name) := by
  unfold shadow
  induction more generalizing ps with
  | nil => rw [List.foldl_nil, List.find?_nil, Option.or_none]
  | cons p more ih =>
    rw [List.foldl_cons, ih, List.find?_cons]
    by_cases hp : (p.name == name) = true
    · rw [hp]
      simp only
      split
      next hany =>
        -- the list has the name already, and that one counts
        rw [eq_of_beq hp] at hany
        obtain ⟨q, hq⟩ := Option.isSome_iff_exists.mp (List.find?_isSome.mpr
          (List.any_eq_true.mp hany))
        rw [hq, Option.some_or, Option.some_or]
      next =>
        rw [List.find?_append, List.find?_cons, hp]
        simp only
        rw [Option.or_assoc, Option.some_or]
    · rw [Bool.eq_false_iff.mpr hp]
      simp only
      split
      · rfl
      · rw [List.find?_append, List.find?_cons, Bool.eq_false_iff.mpr hp]
        simp only
        rw [List.find?_nil, Option.or_none]

theorem prefix_shadow (ps more : List Property) : ps <+: shadow ps more := by
  unfold shadow
  induction more generalizing ps with
  | nil => exact List.prefix_refl ps
  | cons p more ih =>
    rw [List.foldl_cons]
    split
    · exact ih ps
    · exact (List.prefix_append ps [p]).trans (ih _)

theorem mem_of_mem_shadow {p : Property} (h : p ∈ shadow ps more) : p ∈ ps ∨ p ∈ more := by
  unfold shadow at h
  induction more generalizing ps with
  | nil => exact .inl h
  | cons q more ih =>
    rw [List.foldl_cons] at h
    rcases ih h with hp | hp
    · split at hp
      · exact .inl hp
      · rcases List.mem_append.mp hp with hp | hp
        · exact .inl hp
        · exact .inr (List.mem_singleton.mp hp ▸ List.mem_cons_self ..)
    · exact .inr (List.mem_cons_of_mem q hp)

/-- Properties with new names, one of each, are added as they are. -/
theorem shadow_eq_append (h : ((ps ++ more).map (·.name)).Nodup) : shadow ps more = ps ++ more := by
  unfold shadow
  induction more generalizing ps with
  | nil => rw [List.append_nil, List.foldl_nil]
  | cons p more ih =>
    have hnew : ps.any (fun q => q.name == p.name) = false := by
      rw [List.any_eq_false]
      intro q hq he
      rw [List.map_append, List.nodup_append] at h
      exact h.2.2 _ (List.mem_map_of_mem hq) _ (List.mem_map_of_mem (List.mem_cons_self ..))
        (eq_of_beq he)
    rw [List.append_cons] at h ⊢
    rw [List.foldl_cons, hnew]
    exact ih h

end

/-! ## Two walks from one store -/

section

variable {s : Store}

/-- The visit of a class that adds its own properties to those found before. -/
def collect (acc : List Property) (d : ReflectedClass) : Query (Bool × List Property) := do
  return (true, shadow acc (← immediateProperties d))

/-- The visit of a class that looks for a name among its own properties. -/
def seek (name : String) (_ : Option Property) (d : ReflectedClass) :
    Query (Bool × Option Property) := do
  let here := (← immediateProperties d).find? fun p => p.name == name
  return (here.isNone, here)

theorem collect_ok {acc : List Property} {d : ReflectedClass} {r : Bool × List Property}
    (h : outcome (collect acc d) s = .ok r) :
    ∃ ps, outcome (immediateProperties d) s = .ok ps ∧ r = (true, shadow acc ps)
      ∧ after (collect acc d) s = after (immediateProperties d) s := by
  obtain ⟨ps, hps, h⟩ := exists_of_bind_ok h
  cases h
  exact ⟨ps, hps, rfl, after_bind_ok hps⟩

theorem seek_ok (name : String) (a : Option Property) {d : ReflectedClass} {ps : List Property}
    (h : outcome (immediateProperties d) s = .ok ps) :
    outcome (seek name a d) s = .ok ((ps.find? fun p => p.name == name).isNone,
        ps.find? fun p => p.name == name)
      ∧ after (seek name a d) s = after (immediateProperties d) s :=
  ⟨outcome_bind_ok h, after_bind_ok h⟩

/-- A step of the walk that looks for a name, where the properties and the parent of a
class are found. -/
theorem climb_seek {origin name : String} {fuel : Nat} {seen : List String} {c : ReflectedClass}
    {own : List Property} {next : Option ReflectedClass} (hnew : c.key ∉ seen)
    (hown : outcome (immediateProperties c) s = .ok own)
    (hnext : outcome (parent c) (after (immediateProperties c) s) = .ok next)
    (a : Option Property) :
    outcome (climb origin (seek name) (fuel + 1) seen a c) s
      = (own.find? fun p => p.name == name).elim
          (next.elim (.ok none) fun d => outcome (climb origin (seek name) fuel (c.key :: seen) none d)
            (after (parent c) (after (immediateProperties c) s)))
          fun p => .ok (some p) := by
  obtain ⟨hvisit, hafter⟩ := seek_ok name a hown
  rw [climb_new hnew, outcome_bind_ok hvisit, hafter]
  cases own.find? fun p => p.name == name with
  | some p => rfl
  | none =>
    simp only [Option.isNone_none, if_true]
    rw [outcome_bind_ok hnext]
    cases next <;> rfl

/-- Where the walk through all properties comes to a list, it leaves a lineage of settled
classes without a missing parent or a circle, and the walk that looks for a name comes to
the first that they have. -/
theorem climb_walks {origin : String} {fuel : Nat} {seen : List String} {acc : List Property}
    {c : ReflectedClass} {ps : List Property} {t : Store} (hs : s.Filed)
    (hc : s.classes.lookup c.key = some c)
    (h : outcome (climb origin collect fuel seen acc c) s = .ok ps)
    (ht : after (climb origin collect fuel seen acc c) s = t) :
    ∃ cs, Lineage (fun d => outcome (parent d) t) seen c cs .rootless ∧ c.key ∉ seen
      ∧ (∀ d ∈ cs, t.Settles d) ∧ ps = cs.foldl (fun acc d => shadow acc (t.own d)) acc
      ∧ ∀ name a, outcome (climb origin (seek name) fuel seen a c) s
          = .ok (cs.findSome? fun d => (t.own d).find? fun p => p.name == name) := by
  induction fuel generalizing seen acc c s with
  | zero => cases h
  | succ fuel ih =>
    by_cases hseen : c.key ∈ seen
    · rw [(climb_seen (J := fun _ => True) hseen acc s trivial).1] at h
      cases h
    · rw [climb_new hseen] at h ht
      obtain ⟨r, hr, h⟩ := exists_of_bind_ok h
      rw [after_bind_ok hr] at ht
      obtain ⟨own, hown, rfl, hafter⟩ := collect_ok hr
      rw [hafter] at h ht
      simp only [if_true] at h ht
      obtain ⟨next, hnext, h⟩ := exists_of_bind_ok h
      rw [after_bind_ok hnext] at ht
      obtain ⟨hdeclared, howned⟩ := immediateProperties_kept hown
      have hs₁ : s.KeptIn (after (immediateProperties c) s) :=
        (immediateProperties_maintains (Store.lasting_keptIn s) c).holds .refl
      have hs₂ := (parent_maintains (Store.lasting_keptIn (after (immediateProperties c) s)).toSteady
        c).holds .refl
      -- what is left behind for this class, given what is for its parent
      have hown' (hlater : (after (parent c) (after (immediateProperties c) s)).KeptIn t) :
          (t.declared.lookup c.key).isSome = true ∧ t.own c = own := by
        obtain ⟨ds, hds⟩ := Option.isSome_iff_exists.mp hdeclared
        have hlast := (hs₂.trans hlater).declared _ _ hds
        rw [howned, Store.own_eq hds, Store.own_eq hlast, hlast]
        exact ⟨rfl, rfl⟩
      rcases parent_ok_cases hnext with ⟨hname, rfl⟩ | ⟨name, d, hname, rfl, hempty, hd⟩
      · cases h
        rw [after_pure] at ht
        subst ht
        obtain ⟨hsome, howns⟩ := hown' .refl
        refine ⟨[c], .last (.rootless (parent_rootless hname).1), hseen, ?_, ?_, ?_⟩
        · refine List.forall_mem_singleton.mpr ⟨(hs₁.trans hs₂).classes _ _ hc, hsome, ?_⟩
          intro name hsomeName
          rw [hname] at hsomeName
          cases hsomeName
        · rw [List.foldl_cons, List.foldl_nil, howns]
        · intro name a
          rw [climb_seek hseen hown hnext, List.findSome?_cons, howns]
          cases own.find? fun p => p.name == name <;> rfl
      · have hs₁' := (immediateProperties_maintains Store.lasting_filed c).holds hs
        have hs₂' := (parent_maintains Store.lasting_filed.toSteady c).holds hs₁'
        have hdkey := hs₂'.classes _ _ hd
        have hlater : (after (parent c) (after (immediateProperties c) s)).KeptIn t := by
          rw [← ht]
          refine (climb_maintains (Store.lasting_keptIn _) (fun acc e => ?_) fuel _ _ d).holds .refl
          exact (immediateProperties_maintains (Store.lasting_keptIn _) e).bind fun _ => .pure
        obtain ⟨hsome, howns⟩ := hown' hlater
        obtain ⟨cs, hlineage, hnew, hsettled, rfl, hseek⟩ := ih hs₂' (hdkey.symm ▸ hd) h ht
        refine ⟨c :: cs, .step ?_ hnew hlineage, hseen, ?_, ?_, ?_⟩
        · exact (parent_settled hname hempty (hlater.classes _ _ hd)).1
        · refine List.forall_mem_cons.mpr ⟨⟨?_, hsome, fun other hother => ?_⟩, hsettled⟩
          · exact ((hs₁.trans hs₂).trans hlater).classes _ _ hc
          · rw [hname] at hother
            cases hother
            exact ⟨hempty, Option.isSome_iff_exists.mpr ⟨d, hlater.classes _ _ hd⟩⟩
        · rw [List.foldl_cons, howns]
        · intro name a
          rw [climb_seek hseen hown hnext, Option.elim_some, hseek, List.findSome?_cons, howns]
          cases own.find? fun p => p.name == name <;> rfl

end

/-! ## Walks in later stores -/

/-- The properties of some classes, of which nearer ones hide farther ones. -/
def Store.merged (s : Store) (cs : List ReflectedClass) : List Property :=
  cs.foldl (fun acc d => shadow acc (s.own d)) []

/-- A store after a walk from a class through a lineage, of which all is kept. -/
structure Store.Walked (s : Store) (c : ReflectedClass) (cs : List ReflectedClass) : Prop where
  filed : s.Filed
  lineage : Lineage (fun d => outcome (parent d) s) [] c cs .rootless
  settled : ∀ d ∈ cs, s.Settles d

section

variable {t u : Store} {c : ReflectedClass} {cs : List ReflectedClass}

/-- What has a name among the properties of some classes is what the first class has that
has one of that name. -/
theorem find?_merged (t : Store) (cs : List ReflectedClass) (name : String) :
    (t.merged cs).find? (fun p => p.name == name)
      = cs.findSome? fun d => (t.own d).find? fun p => p.name == name := by
  have hfold (acc : List Property) :
      (cs.foldl (fun acc d => shadow acc (t.own d)) acc).find? (fun p => p.name == name)
        = (acc.find? fun p => p.name == name).or
          (cs.findSome? fun d => (t.own d).find? fun p => p.name == name) := by
    induction cs generalizing acc with
    | nil => rw [List.foldl_nil, List.findSome?_nil, Option.or_none]
    | cons d cs ih =>
      rw [List.foldl_cons, ih, find?_shadow, Option.or_assoc, List.findSome?_cons]
      cases (t.own d).find? fun p => p.name == name <;> rfl
  rw [Store.merged, hfold, List.find?_nil, Option.none_or]

theorem merged_names_nodup (t : Store) (cs : List ReflectedClass) :
    ((t.merged cs).map (·.name)).Nodup := by
  have hfold (acc : List Property) (h : (acc.map (·.name)).Nodup) :
      ((cs.foldl (fun acc d => shadow acc (t.own d)) acc).map (·.name)).Nodup := by
    induction cs generalizing acc with
    | nil => exact h
    | cons d cs ih => exact ih _ (addNew_names_nodup h (t.own d))
  exact hfold [] List.nodup_nil

/-- The properties of the first class come first, in the same order. -/
theorem own_prefix_merged (ht : t.Filed) (c : ReflectedClass) (cs : List ReflectedClass) :
    t.own c <+: t.merged (c :: cs) := by
  have hfold (acc : List Property) :
      acc <+: cs.foldl (fun acc d => shadow acc (t.own d)) acc := by
    induction cs generalizing acc with
    | nil => exact List.prefix_refl acc
    | cons d cs ih => exact (prefix_shadow acc (t.own d)).trans (ih _)
  have hown : shadow [] (t.own c) = t.own c := shadow_eq_append (Store.own_names_nodup ht c)
  rw [Store.merged, List.foldl_cons, hown]
  exact hfold (t.own c)

theorem Store.Settles.own_eq {s : Store} (h : s.Settles c) (hu : s.KeptIn u) : u.own c = s.own c := by
  obtain ⟨ds, hds⟩ := Option.isSome_iff_exists.mp h.declared
  rw [Store.own_eq hds, Store.own_eq (hu.declared _ _ hds)]

theorem Store.Settles.immediateProperties_comes {s : Store} (h : s.Settles c) :
    Comes s.KeptIn (Reflector.immediateProperties c) (.ok (s.own c)) s.KeptIn := by
  intro u hu
  obtain ⟨houtcome, hafter⟩ := (h.mono hu).immediateProperties
  rw [houtcome, hafter, h.own_eq hu]
  exact ⟨rfl, hu⟩

theorem Store.classes_length_le (s : Store) : s.classes.length ≤ s.depth := by
  have hsizes := Node.length_le_sizes (s.classes.map fun e => e.2.node)
  rw [List.length_map] at hsizes
  have hextent : Node.sizes (s.classes.map fun e => e.2.node) ≤ s.extent := Nat.le_add_right _ _
  have hdepth : s.extent + 2 ≤ s.depth := Nat.le_mul_of_pos_right _ (Nat.succ_pos _)
  omega

/-- After a walk, and in every later store, a climb visits the classes of the walk. -/
theorem Store.Walked.climbFrom (h : t.Walked c cs) (hu : t.KeptIn u) {α : Type}
    {visit : α → ReflectedClass → Query (Bool × α)}
    {see : α → ReflectedClass → Outcome (Bool × α)}
    (hvisit : ∀ a, ∀ d ∈ cs, Comes t.KeptIn (visit a d) (see a d) t.KeptIn) (a : α) :
    outcome (Reflector.climbFrom c a visit) u = survey see (fun b => .ok b) cs a := by
  have hkeys (d : ReflectedClass) (hd : d ∈ cs) : d.key ∈ u.classes.map (·.1) := by
    obtain ⟨before, rest, hsplit, _⟩ :=
      List.lookup_eq_some_iff.mp (hu.classes _ _ (h.settled d hd).kept)
    rw [hsplit, List.map_append, List.map_cons]
    exact List.mem_append_right _ (List.mem_cons_self ..)
  have hfuel : cs.length ≤ u.depth :=
    calc cs.length ≤ unused (u.classes.map (·.1)) [] := h.lineage.length_le List.not_mem_nil hkeys
      _ ≤ (u.classes.map (·.1)).length := unused_le_length
      _ = u.classes.length := List.length_map ..
      _ ≤ u.depth := u.classes_length_le
  unfold Reflector.climbFrom
  rw [(depth_bind _ u).1]
  exact (h.lineage.climb_comes List.not_mem_nil hvisit
    (fun d hd => (h.settled d hd).parent_comes) hfuel a u hu).1

/-- What asking for a property comes to, and asking whether there is one, is as a list of
properties has it. -/
def Store.LooksUp (s : Store) (c : ReflectedClass) (ps : List Property) : Prop :=
  ∀ written,
    (∀ p, ps.find? (fun p => p.name == PropertyDeclaration.bareName written) = some p →
      outcome (property c written) s = .ok p ∧ outcome (hasProperty c written) s = .ok true)
    ∧ (ps.find? (fun p => p.name == PropertyDeclaration.bareName written) = none →
      outcome (property c written) s
          = .error (.propertyNotFound c.name (PropertyDeclaration.bareName written))
        ∧ outcome (hasProperty c written) s = .ok false)

theorem property_eq (c : ReflectedClass) (written : String) :
    property c written = (do
      match ← climbFrom c none (seek (PropertyDeclaration.bareName written)) with
      | some p => return p
      | none => throw (.propertyNotFound c.name (PropertyDeclaration.bareName written))) := rfl

/-- What a search comes to is what is told of a property, and of whether there is one. -/
theorem looksUp_of_seek {s : Store} {ps : List Property}
    (h : ∀ name, outcome (climbFrom c none (seek name)) s
      = .ok (ps.find? fun p => p.name == name)) : s.LooksUp c ps := by
  intro written
  have hsearch := h (PropertyDeclaration.bareName written)
  refine ⟨fun p hp => ?_, fun hnone => ?_⟩
  · have hproperty : outcome (property c written) s = .ok p := by
      rw [property_eq, outcome_bind_ok hsearch, hp]
      rfl
    refine ⟨hproperty, ?_⟩
    unfold hasProperty
    rw [outcome_tryCatch, outcome_bind_ok hproperty]
    rfl
  · have hproperty : outcome (property c written) s
        = .error (.propertyNotFound c.name (PropertyDeclaration.bareName written)) := by
      rw [property_eq, outcome_bind_ok hsearch, hnone]
      rfl
    refine ⟨hproperty, ?_⟩
    unfold hasProperty
    rw [outcome_tryCatch, outcome_bind_error hproperty]
    rfl

theorem Store.Walked.properties (h : t.Walked c cs) (hu : t.KeptIn u) :
    outcome (Reflector.properties c) u = .ok (t.merged cs) := by
  have hvisit (acc : List Property) (d : ReflectedClass) (hd : d ∈ cs) :
      Comes t.KeptIn (collect acc d) (.ok (true, shadow acc (t.own d))) t.KeptIn :=
    (h.settled d hd).immediateProperties_comes.bind_ok .pure
  have hclimb := h.climbFrom hu hvisit []
  rw [survey_all] at hclimb
  exact hclimb

theorem Store.Walked.looksUp (h : t.Walked c cs) (hu : t.KeptIn u) :
    u.LooksUp c (t.merged cs) := by
  refine looksUp_of_seek fun name => ?_
  have hvisit (a : Option Property) (d : ReflectedClass) (hd : d ∈ cs) :
      Comes t.KeptIn (seek name a d)
        (lookFor (fun d => .ok ((t.own d).find? fun p => p.name == name)) a d) t.KeptIn :=
    (h.settled d hd).immediateProperties_comes.bind_ok .pure
  rw [h.climbFrom hu hvisit none, find?_merged]
  exact survey_findSome

/-- Where the properties of a class come to a list, a walk was made that leaves all it needs
in the store, and looking properties up would have come to what the list has. -/
theorem exists_walked {s : Store} {ps : List Property} (hs : s.Filed)
    (hc : s.classes.lookup c.key = some c) (h : outcome (properties c) s = .ok ps) :
    ∃ cs, (after (properties c) s).Walked c cs ∧ ps = (after (properties c) s).merged cs
      ∧ s.LooksUp c ps := by
  have hfiled := (properties_maintains Store.lasting_filed c).holds hs
  have hproperties : properties c = Query.depth >>= fun n => climb c.name collect n [] [] c := rfl
  have hclimb : outcome (climb c.name collect s.depth [] [] c) s = .ok ps := by
    rw [← h, hproperties, (depth_bind _ s).1]
  have hafter : after (climb c.name collect s.depth [] [] c) s = after (properties c) s := by
    rw [hproperties, (depth_bind _ s).2]
  obtain ⟨cs, hlineage, _, hsettled, hps, hseek⟩ := climb_walks hs hc hclimb hafter
  have hmerged : ps = (after (properties c) s).merged cs := hps
  refine ⟨cs, ⟨hfiled, hlineage, hsettled⟩, hmerged, looksUp_of_seek fun name => ?_⟩
  unfold climbFrom
  rw [(depth_bind _ s).1, hseek name none, hmerged, find?_merged]

/-- A property of some classes is one of the first class that has one of its name. -/
theorem exists_nearest {p : Property} (h : p ∈ t.merged cs) :
    ∃ before d rest, cs = before ++ d :: rest ∧ p ∈ t.own d
      ∧ ∀ e ∈ before, ∀ q ∈ t.own e, q.name ≠ p.name := by
  have hfind : (t.merged cs).find? (fun q => q.name == p.name) = some p := by
    have hnodup := merged_names_nodup t cs
    obtain ⟨before, rest, hsplit⟩ := List.append_of_mem h
    rw [hsplit, List.map_append, List.map_cons, List.nodup_append] at hnodup
    rw [List.find?_eq_some_iff_append]
    refine ⟨beq_self_eq_true _, before, rest, hsplit, fun q hq => ?_⟩
    have hne := hnodup.2.2 q.name (List.mem_map_of_mem hq) p.name (List.mem_cons_self ..)
    rw [beq_false_of_ne hne]
    rfl
  rw [find?_merged, List.findSome?_eq_some_iff] at hfind
  obtain ⟨before, d, rest, hsplit, hd, hbefore⟩ := hfind
  refine ⟨before, d, rest, hsplit, List.mem_of_find?_eq_some hd, fun e he q hq hname => ?_⟩
  exact List.find?_eq_none.mp (hbefore e he) q hq (beq_iff_eq.mpr hname)

/-- A property that a class has of its own is kept with the class under its name, and leads
back to the class. -/
theorem Store.Settles.declaringClass {d : ReflectedClass} {p : Property} (h : u.Settles d)
    (hp : p ∈ u.own d) :
    p.place? = some (d.key, p.name) ∧ outcome p.declaringClass u = .ok d := by
  obtain ⟨e, _, rfl⟩ := List.mem_map.mp hp
  refine ⟨rfl, ?_⟩
  have hplace : ((Property.ofClass d e).place?.bind fun k => u.classes.lookup k.1) = some d :=
    h.kept
  unfold Property.declaringClass
  rw [outcome_bind_ok (outcome_get u), after_get, hplace]
  rfl

end

/-- In a store a list holds the properties of a class: it is what asking for all of them
comes to, and what asking for one goes by; what the class has of its own comes first, and
each property is one of the nearest class that has one of its name. -/
structure Store.Lists (s : Store) (c : ReflectedClass) (ps : List Property) : Prop where
  properties : outcome (Reflector.properties c) s = .ok ps
  looksUp : s.LooksUp c ps
  first : ∃ own, outcome (immediateProperties c) s = .ok own ∧ own <+: ps
  nearest : ∃ cs, Lineage (fun d => outcome (parent d) s) [] c cs .rootless
    ∧ ∀ p ∈ ps, ∃ before d rest own, cs = before ++ d :: rest
      ∧ p.place? = some (d.key, p.name) ∧ outcome p.declaringClass s = .ok d
      ∧ outcome (immediateProperties d) s = .ok own ∧ p ∈ own
      ∧ ∀ e ∈ before, ∃ others, outcome (immediateProperties e) s = .ok others
        ∧ ∀ q ∈ others, q.name ≠ p.name

/-- After a walk, and in every later store, its list holds the properties of the class. -/
theorem Store.Walked.lists {t u : Store} {c : ReflectedClass} {cs : List ReflectedClass}
    (h : t.Walked c cs) (hu : t.KeptIn u) : u.Lists c (t.merged cs) := by
  have hlater (d : ReflectedClass) (hd : d ∈ cs) : u.Settles d ∧ u.own d = t.own d :=
    ⟨(h.settled d hd).mono hu, (h.settled d hd).own_eq hu⟩
  have himmediate (d : ReflectedClass) (hd : d ∈ cs) :
      outcome (immediateProperties d) u = .ok (t.own d) :=
    ((h.settled d hd).immediateProperties_comes u hu).1
  refine ⟨h.properties hu, h.looksUp hu, ?_, cs, ?_, fun p hp => ?_⟩
  · obtain ⟨rest, rfl⟩ := h.lineage.exists_cons
    exact ⟨_, himmediate c (List.mem_cons_self ..), own_prefix_merged h.filed c rest⟩
  · -- the parents are those that were found on the walk
    exact h.lineage.congr fun d hd => ((h.settled d hd).parent_comes u hu).1
  · obtain ⟨before, d, rest, hsplit, hd, hbefore⟩ := exists_nearest hp
    have hmem : d ∈ cs := hsplit ▸ List.mem_append_right _ (List.mem_cons_self ..)
    obtain ⟨hsettles, hown⟩ := hlater d hmem
    obtain ⟨hplace, hclass⟩ := hsettles.declaringClass (hown ▸ hd)
    refine ⟨before, d, rest, t.own d, hsplit, hplace, hclass, himmediate d hmem, hd, fun e he => ?_⟩
    exact ⟨t.own e, himmediate e (hsplit ▸ List.mem_append_left _ he), hbefore e he⟩

/-- Whatever happened to a store, and whatever happens later: where the properties of a
class that is kept come to a list, the list has one of each name, asking for a property
then goes by the list and would have gone by it before, and the list holds from then on. -/
theorem Store.properties_lookup (w : World) (events : List Event) (c : ReflectedClass)
    (ps : List Property)
    (hc : ((ofWorld w).afterEvents events).classes.lookup c.key = some c)
    (hps : outcome (properties c) ((ofWorld w).afterEvents events) = .ok ps) :
    (ps.map (·.name)).Nodup ∧ ((ofWorld w).afterEvents events).LooksUp c ps
      ∧ ∀ later, ((after (properties c)
          ((ofWorld w).afterEvents events)).afterEvents later).Lists c ps := by
  have hfiled := lasting_filed.afterEvents (filed_ofWorld w) events
  obtain ⟨cs, hwalked, hmerged, hlooksUp⟩ := exists_walked hfiled hc hps
  refine ⟨?_, hlooksUp, fun later => ?_⟩
  · rw [hmerged]
    exact merged_names_nodup _ cs
  · rw [hmerged]
    exact hwalked.lists ((lasting_keptIn _).afterEvents .refl later)

/-! ## A class with an ancestor -/

/-- A text with a class that extends another, and a property in each. -/
def inheritingText : String :=
  "<?php class A \x7b public $x; \x7d class B extends A \x7b public $y; \x7d"

/-- The start of the text. -/
def inheritingTag : Node := ⟨"php_tag", 0, 5, none, true, false, []⟩

/-- A declaration of a public property with a name of one letter. -/
def publicProperty (start : Nat) : Node :=
  ⟨"property_declaration", start, start + 10, none, true, false,
    [⟨"visibility_modifier", start, start + 6, none, true, false, []⟩,
      ⟨"property_element", start + 7, start + 9, none, true, false,
        [⟨"variable_name", start + 7, start + 9, some "name", true, false, []⟩]⟩]⟩

/-- The first declaration in `inheritingText`. -/
def inheritedClass : Node :=
  ⟨"class_declaration", 6, 28, none, true, false,
    [⟨"name", 12, 13, some "name", true, false, []⟩,
      ⟨"declaration_list", 14, 28, some "body", true, false, [publicProperty 16]⟩]⟩

/-- The second declaration in `inheritingText`. -/
def inheritingClass : Node :=
  ⟨"class_declaration", 29, 61, none, true, false,
    [⟨"name", 35, 36, some "name", true, false, []⟩,
      ⟨"base_clause", 37, 46, none, true, false, [⟨"name", 45, 46, none, true, false, []⟩]⟩,
      ⟨"declaration_list", 47, 61, some "body", true, false, [publicProperty 49]⟩]⟩

/-- A world with nothing but these classes. -/
def inheritingWorld : World :=
  ⟨FileTree.empty [],
    [(inheritingText, ⟨"program", 0, 61, none, true, false,
      [inheritingTag, inheritedClass, inheritingClass]⟩)],
    [.text inheritingText "<string>"], []⟩

/-- The ancestor. -/
def inherited : ReflectedClass :=
  ⟨⟨⟨inheritedClass, [inheritingTag]⟩, .classKind, "A", NameScope.empty⟩,
    inheritingWorld.trees.parse inheritingText "<string>"⟩

/-- The class that extends it. -/
def inheriting : ReflectedClass :=
  ⟨⟨⟨inheritingClass, [inheritedClass, inheritingTag]⟩, .classKind, "B", NameScope.empty⟩,
    inheritingWorld.trees.parse inheritingText "<string>"⟩

theorem classes_inheritingWorld : inheritingWorld.classes = [inherited, inheriting] := by
  have hsources : inheritingWorld.sources = [inherited.source] := rfl
  have hchildren : inherited.source.root.children
      = [inheritingTag, inheritedClass, inheritingClass] := rfl
  have hsecond : ClassLike.walk inherited.source.text [inheritedClass, inheritingTag]
      [inheritingClass] NameScope.empty = ([inheriting.classLike], []) := by
    rw [ClassLike.walk, ClassLike.walk]
    rfl
  have hfirst : ClassLike.walk inherited.source.text [inheritingTag]
      [inheritedClass, inheritingClass] NameScope.empty
      = ([inherited.classLike, inheriting.classLike], []) := by
    rw [ClassLike.walk, hsecond]
    rfl
  have hwalk : ClassLike.walk inherited.source.text []
      [inheritingTag, inheritedClass, inheritingClass] NameScope.empty
      = ([inherited.classLike, inheriting.classLike], []) := by
    refine Eq.trans ?_ hfirst
    rw [ClassLike.walk]
    rfl
  rw [World.classes, hsources, List.flatMap_singleton, World.classesIn, ClassLike.all, hchildren,
    hwalk]
  rfl

theorem isStatic_inheritingWorld : inheritingWorld.IsStatic := World.isStatic_of_text rfl

theorem find?_inheriting : inheritingWorld.find? inheriting.key = some inheriting := by
  rw [World.find?, classes_inheritingWorld]
  rfl

theorem answer_inherited : inheritingWorld.answer "A" = .ok inherited := by
  refine World.answer_name (c := inherited) ?_ rfl
  rw [World.find?, classes_inheritingWorld]
  rfl

theorem lineage_inheriting :
    Lineage inheritingWorld.parent? [] inheriting [inheriting, inherited] .rootless := by
  have hname : inheriting.parentName? = some "A" := by
    have hclause : inheriting.parentName? = some (NameScope.empty.resolve "A") := rfl
    rw [hclause, NameScope.resolve_eq]
    rfl
  have hparent : inheritingWorld.parent? inheriting = .ok (some inherited) := by
    rw [World.parent?, hname]
    exact congrArg (· >>= fun d => .ok (some d)) answer_inherited
  have hkey : inherited.key ∉ [inheriting.key] := by
    have hfirst : inherited.key = "a" := rfl
    have hsecond : inheriting.key = "b" := rfl
    rw [hfirst, hsecond]
    decide
  exact .step hparent hkey (.last (.rootless rfl))

/-- The properties of the class that extends another: its own first. -/
def inheritingProperties : List Property :=
  [Property.ofClass inheriting { name := "y", span := ⟨1, 50, 1, 59⟩ },
    Property.ofClass inherited { name := "x", span := ⟨1, 17, 1, 26⟩ }]

/-- The inherited property is found by what the list has, also after the world has changed. -/
theorem properties_lookup_inheriting :
    ((ofWorld inheritingWorld).afterEvents [.call (.reflect "B")]).classes.lookup inheriting.key
        = some inheriting
      ∧ outcome (properties inheriting)
          ((ofWorld inheritingWorld).afterEvents [.call (.reflect "B")]) = .ok inheritingProperties
      ∧ outcome (property inheriting "$x") ((after (properties inheriting)
          ((ofWorld inheritingWorld).afterEvents [.call (.reflect "B")])).afterEvents
            [.world selfParentWorld])
          = .ok (Property.ofClass inherited { name := "x", span := ⟨1, 17, 1, 26⟩ }) := by
  have hanswer : inheritingWorld.answer "B" = .ok inheriting :=
    World.answer_name (c := inheriting) find?_inheriting rfl
  have hreflect := reflect_comes isStatic_inheritingWorld "B" _ within_ofWorld
  rw [hanswer] at hreflect
  have hstore : (ofWorld inheritingWorld).afterEvents [.call (.reflect "B")]
      = after (reflect "B") (ofWorld inheritingWorld) := after_bind_ok hreflect.1
  have hkept := reflect_kept hreflect.1
  have hvisit (acc : List Property) (d : ReflectedClass) (hd : d ∈ [inheriting, inherited]) :
      Comes (Within inheritingWorld [] []) (collect acc d)
        (d.ownDeclarations >>= fun ds => .ok (true, shadow acc (ds.map (Property.ofClass d))))
        (Within inheritingWorld [] []) := by
    have htraits : ∀ e ∈ [inheriting, inherited], e.traitNames = [] :=
      List.forall_mem_cons.mpr ⟨rfl, List.forall_mem_singleton.mpr rfl⟩
    have hfind := World.find?_of_mem_lineage lineage_inheriting find?_inheriting d hd
    have himmediate := immediateProperties_comes (L := []) (K := []) isStatic_inheritingWorld hfind
      (World.gathers_of_noTraits (htraits d hd))
    cases hown : d.ownDeclarations with
    | error f => rw [hown] at himmediate; exact himmediate.bind_error
    | ok ds => rw [hown] at himmediate; exact himmediate.bind_ok .pure
  have hproperties := climbFrom_comes isStatic_inheritingWorld lineage_inheriting find?_inheriting
    hvisit [] _ hreflect.2
  have hlist : outcome (properties inheriting) (after (reflect "B") (ofWorld inheritingWorld))
      = .ok inheritingProperties := hproperties.1
  have hkeptKey : (after (reflect "B") (ofWorld inheritingWorld)).classes.lookup inheriting.key
      = some inheriting := hkept
  rw [hstore]
  refine ⟨hkeptKey, hlist, ?_⟩
  rw [← hstore] at hkeptKey hlist
  have hlookup := (Store.properties_lookup inheritingWorld [.call (.reflect "B")] inheriting
    inheritingProperties hkeptKey hlist).2.2 [.world selfParentWorld]
  rw [← hstore]
  exact ((hlookup.looksUp "$x").1 _ rfl).1

end StaticReflection
