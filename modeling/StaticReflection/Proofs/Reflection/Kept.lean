import StaticReflection.Proofs.Locating.Alike
import StaticReflection.Proofs.Reflection.Lookup

/-!
# Classes that are found are kept

A caller may ask about classes and about what they have, with classes and properties that it
holds from before, and between two questions all that locators answer may change; a caller's
own locator may change its mind even while a question is being answered. `Inquiry` lists the
questions, `Turn` adds the changes of the world, and `Store.afterTurns` is a store after some
of them.

> `Store.finds_afterTurns`: every class is kept under its own key. A class that an answer
> hands out is what every identifier with its key names from then on, without a search. A
> failure to reflect an identifier keeps nothing under its key, and the identifier is
> reflected as soon as some source that is offered for it declares it.

That holds for keys that are not empty: the empty one names nothing, although a class whose
name is missing has it and is listed.
-/

namespace StaticReflection

open Folding Outcome Reflector Store

/-- A question of a caller. -/
inductive Inquiry where
  | reflect (identifier : String)
  | hasClass (identifier : String)
  | allClasses
  | parent (c : ReflectedClass)
  | parentNames (c : ReflectedClass)
  | immediateProperties (c : ReflectedClass)
  | properties (c : ReflectedClass)
  | property (c : ReflectedClass) (name : String)
  | hasProperty (c : ReflectedClass) (name : String)
  | declaringClass (p : Property)
  | defaultValue (p : Property)
  | constantValue (c : ReflectedClass) (name : String)
  | resolveConstant (c : ReflectedClass) (scope constant : String)

/-- A question that hands out no class. -/
def Query.handsOutNone {α : Type} (q : Query α) : Query (List ReflectedClass) := do
  let _ ← q
  return []

/-- What a store makes of a question: the classes that the answer hands out. -/
def Inquiry.run : Inquiry → Query (List ReflectedClass)
  | .reflect identifier => do return [← Reflector.reflect identifier]
  | .hasClass identifier => (Reflector.hasClass identifier).handsOutNone
  | .allClasses => Reflector.allClasses
  | .parent c => do return (← Reflector.parent c).toList
  | .parentNames c => (Reflector.parentNames c).handsOutNone
  | .immediateProperties c => (Reflector.immediateProperties c).handsOutNone
  | .properties c => (Reflector.properties c).handsOutNone
  | .property c name => (Reflector.property c name).handsOutNone
  | .hasProperty c name => (Reflector.hasProperty c name).handsOutNone
  | .declaringClass p => do return [← p.declaringClass]
  | .defaultValue p => (Reflector.defaultValue p).handsOutNone
  | .constantValue c name => (Reflector.constantValue c name).handsOutNone
  | .resolveConstant c scope constant =>
    (Reflector.resolveConstant c scope constant).handsOutNone

/-- Something that happens to a store: a question, or another world. -/
inductive Turn where
  | ask (inquiry : Inquiry)
  | world (w : World)

/-- The store after something happened to it. -/
def Turn.apply (s : Store) : Turn → Store
  | .ask inquiry => after inquiry.run s
  | .world w => { s with world := w }

/-- A store after some things happened to it. -/
def Store.afterTurns (s : Store) (turns : List Turn) : Store := turns.foldl Turn.apply s

/-- Every class is kept under its own key, and under each key one class. -/
structure Store.Indexed (s : Store) : Prop where
  keys : (s.classes.map (·.1)).Nodup
  keyed : ∀ k c, (k, c) ∈ s.classes → c.key = k

/-- The syntax tree that a located source has, or gets when it is parsed. -/
def Store.parseOf (s : Store) (located : LocatedSource) : ParsedSource :=
  (s.parsed.lookup (located.origin, located.text)).getD
    (s.world.trees.parse located.text located.origin)

/-! ## What a question leaves as it is -/

section

variable {P : Store → Prop}

theorem Query.handsOutNone_maintains {α : Type} {q : Query α} (h : q.Maintains P) :
    q.handsOutNone.Maintains P := h.bind fun _ => .pure

variable (hP : Store.Lasting P)
include hP

theorem Inquiry.run_maintains (inquiry : Inquiry) : inquiry.run.Maintains P := by
  cases inquiry with
  | reflect identifier => exact (reflect_maintains hP.toSteady identifier).bind fun _ => .pure
  | hasClass identifier => exact Query.handsOutNone_maintains (hasClass_maintains hP.toSteady identifier)
  | allClasses => exact allClasses_maintains hP.toSteady
  | parent c => exact (parent_maintains hP.toSteady c).bind fun _ => .pure
  | parentNames c => exact Query.handsOutNone_maintains (parentNames_maintains hP c)
  | immediateProperties c => exact Query.handsOutNone_maintains (immediateProperties_maintains hP c)
  | properties c => exact Query.handsOutNone_maintains (properties_maintains hP c)
  | property c name => exact Query.handsOutNone_maintains (property_maintains hP c name)
  | hasProperty c name => exact Query.handsOutNone_maintains (hasProperty_maintains hP c name)
  | declaringClass p => exact (declaringClass_maintains hP p).bind fun _ => .pure
  | defaultValue p => exact Query.handsOutNone_maintains (defaultValue_maintains hP p)
  | constantValue c name => exact Query.handsOutNone_maintains (constantValue_maintains hP c name)
  | resolveConstant c scope constant =>
    exact Query.handsOutNone_maintains
      (resolveConstantWith_maintains hP (constantValue_maintains hP) c scope constant)

/-- A lasting property holds after all turns. -/
theorem Store.Lasting.afterTurns {s : Store} (hs : P s) (turns : List Turn) :
    P (s.afterTurns turns) := by
  induction turns generalizing s with
  | nil => exact hs
  | cons turn rest ih =>
    refine ih ?_
    cases turn with
    | ask inquiry => exact (inquiry.run_maintains hP).holds hs
    | world w => exact hP.world s w hs

end

theorem Store.lasting_indexed : Lasting Indexed where
  world _ _ h := ⟨h.keys, h.keyed⟩
  parsed _ _ _ h := ⟨h.keys, h.keyed⟩
  classes s c hc h := by
    have hnew : s.classes.any (fun p => p.1 == c.key) = false := by
      rw [List.any_eq_false]
      intro p hp he
      exact bne_iff_ne.mp (List.lookup_eq_none_iff.mp hc p hp) (eq_of_beq he).symm
    have hnodup : ((s.classes ++ [(c.key, c)]).map (·.1)).Nodup :=
      append_names_nodup (x := (c.key, c)) h.keys hnew
    refine ⟨hnodup, fun k d hd => ?_⟩
    rcases List.mem_append.mp hd with hd | hd
    · exact h.keyed k d hd
    · obtain ⟨rfl, rfl⟩ := Prod.mk.inj (List.mem_singleton.mp hd)
      rfl
  declared _ _ _ _ _ h := ⟨h.keys, h.keyed⟩
  visibilities _ _ _ h := ⟨h.keys, h.keyed⟩
  defaults _ _ _ h := ⟨h.keys, h.keyed⟩
  folding _ _ h := ⟨h.keys, h.keyed⟩

theorem Store.indexed_ofWorld (w : World) : (ofWorld w).Indexed :=
  ⟨List.nodup_nil, fun _ _ h => by cases h⟩

/-! ## Classes that are handed out -/

/-- A query that leaves every class that it hands out kept under its own key. -/
def Query.HandsOut (q : Query (List ReflectedClass)) : Prop :=
  ∀ s cs, s.Filed → outcome q s = .ok cs → ∀ c ∈ cs, (after q s).classes.lookup c.key = some c

section

variable {α : Type} {q : Query α}

theorem Query.handsOutNone_handsOut : q.handsOutNone.HandsOut := fun s cs _ h c hc => by
  obtain ⟨_, _, h⟩ := exists_of_bind_ok h
  cases h
  cases hc

/-- A class that is kept under some key is kept under its own. -/
theorem Store.Filed.lookup_key {s : Store} (hs : s.Filed) {k : String} {c : ReflectedClass}
    (h : s.classes.lookup k = some c) : s.classes.lookup c.key = some c := by
  rw [hs.classes k c h]
  exact h

theorem Query.handsOut_pure_nil : Query.HandsOut (pure []) := fun s cs _ h c hc => by
  cases h
  cases hc

/-- Classes handed out after a step are those handed out by what follows it. -/
theorem Query.HandsOut.of_bind {g : α → Query (List ReflectedClass)} (hq : q.Maintains Store.Filed)
    (hg : ∀ a, (g a).HandsOut) : (q >>= g).HandsOut := fun s cs hs h c hc => by
  obtain ⟨a, ha, h⟩ := exists_of_bind_ok h
  rw [after_bind_ok ha]
  exact hg a _ cs (hq.holds hs) h c hc

/-- Classes that were handed out first stay kept while more are handed out. -/
theorem Query.HandsOut.append {q r : Query (List ReflectedClass)} (h : q.HandsOut)
    (hq : q.Maintains Store.Filed) (hr : r.HandsOut)
    (hkept : ∀ s : Store, r.Maintains s.KeptIn) :
    Query.HandsOut (do let found ← q; return found ++ (← r)) := fun s cs hs hcs c hc => by
  obtain ⟨found, hfound, hcs⟩ := exists_of_bind_ok hcs
  obtain ⟨more, hmore, hcs⟩ := exists_of_bind_ok hcs
  cases hcs
  rw [after_bind_ok hfound, after_bind_ok hmore, after_pure]
  rcases List.mem_append.mp hc with hc | hc
  · exact ((hkept (after q s)).holds .refl).classes _ _ (h s found hs hfound c hc)
  · exact hr _ more (hq.holds hs) hmore c hc

end

theorem reflect_handsOut (identifier : String) :
    Query.HandsOut (do return [← reflect identifier]) := fun s cs hs h c hc => by
  obtain ⟨d, hd, h⟩ := exists_of_bind_ok h
  cases h
  rw [List.mem_singleton] at hc
  subst hc
  rw [after_bind_ok hd, after_pure]
  exact ((reflect_maintains lasting_filed.toSteady identifier).holds hs).lookup_key (reflect_kept hd)

theorem parent_handsOut (c : ReflectedClass) :
    Query.HandsOut (do return (← parent c).toList) := fun s cs hs h d hd => by
  obtain ⟨next, hnext, h⟩ := exists_of_bind_ok h
  cases h
  rw [after_bind_ok hnext, after_pure]
  rcases parent_ok_cases hnext with ⟨_, rfl⟩ | ⟨name, p, _, rfl, _, hp⟩
  · cases hd
  · rw [Option.toList_some, List.mem_singleton] at hd
    subst hd
    exact ((parent_maintains lasting_filed.toSteady c).holds hs).lookup_key hp

theorem declaringClass_handsOut (p : Property) :
    Query.HandsOut (do return [← p.declaringClass]) := by
  intro s cs hs h c hc
  obtain ⟨d, hd, h⟩ := exists_of_bind_ok h
  cases h
  rw [List.mem_singleton] at hc
  subst hc
  rw [after_bind_ok hd, after_pure]
  unfold Property.declaringClass at hd ⊢
  rw [outcome_bind_ok (outcome_get s), after_get] at hd
  rw [after_bind_ok (outcome_get s), after_get]
  cases hplace : p.place?.bind fun k => s.classes.lookup k.1 with
  | some known =>
    rw [hplace] at hd
    cases hd
    obtain ⟨k, _, hk⟩ := Option.bind_eq_some_iff.mp hplace
    exact hs.lookup_key hk
  | none =>
    rw [hplace] at hd
    have hfiled := (reflect_maintains lasting_filed.toSteady p.className).holds hs
    exact hfiled.lookup_key (reflect_kept hd)

theorem keepEach_handsOut (cs : List ReflectedClass) : Query.HandsOut (cs.mapM keep) := by
  induction cs with
  | nil => rw [List.mapM_nil]; exact Query.handsOut_pure_nil
  | cons c cs ih =>
    rw [List.mapM_cons]
    intro s ds hs h d hd
    obtain ⟨e, he, h⟩ := exists_of_bind_ok h
    obtain ⟨es, hes, h⟩ := exists_of_bind_ok h
    cases h
    have hfiled := (keep_maintains lasting_filed.toSteady c).holds hs
    rw [after_bind_ok he, after_bind_ok hes, after_pure]
    rcases List.mem_cons.mp hd with rfl | hd
    · have hstays : (cs.mapM keep).Maintains (after (keep c) s).KeptIn := fun L =>
        .mapM (fun c => keep_maintains (lasting_keptIn _).toSteady c L) cs
      exact (hstays.holds .refl).classes _ _ (hfiled.lookup_key (keep_kept he))
    · exact ih _ es hfiled hes d hd

theorem listSupplies_handsOut (supplies : List Supply) :
    Query.HandsOut (listSupplies supplies) := by
  induction supplies with
  | nil => exact Query.handsOut_pure_nil
  | cons supply rest ih =>
    refine .of_bind (locating_maintains lasting_filed.toSteady _) fun located => ?_
    refine .of_bind (parse_maintains lasting_filed.toSteady located) fun p => ?_
    refine .append ?_ (keepAll_maintains lasting_filed.toSteady p) ih fun s =>
      listSupplies_maintains (lasting_keptIn s).toSteady rest
    rw [keepAll_eq]
    exact keepEach_handsOut _

theorem listLocators_handsOut (positions : List Nat) :
    Query.HandsOut (listLocators positions) := by
  induction positions with
  | nil => exact Query.handsOut_pure_nil
  | cons i rest ih =>
    refine .of_bind (locating_maintains lasting_filed.toSteady _) fun supplies => ?_
    exact (listSupplies_handsOut supplies).append
      (listSupplies_maintains lasting_filed.toSteady supplies) ih fun s =>
        listLocators_maintains (lasting_keptIn s).toSteady rest

/-- A question leaves every class that its answer hands out kept under its own key. -/
theorem Inquiry.run_handsOut (inquiry : Inquiry) : inquiry.run.HandsOut := by
  cases inquiry with
  | reflect identifier => exact reflect_handsOut identifier
  | allClasses =>
    exact .of_bind (locating_maintains lasting_filed.toSteady _) listLocators_handsOut
  | parent c => exact parent_handsOut c
  | declaringClass p => exact declaringClass_handsOut p
  | _ => exact Query.handsOutNone_handsOut

/-! ## Searches -/

section

variable {s : Store} {key identifier : String}

/-- A located source is parsed to what its store has, or makes, of it, and no other source
gets another syntax tree. -/
theorem parse_parseOf (located : LocatedSource) (s : Store) :
    outcome (parse located) s = .ok (s.parseOf located)
      ∧ (after (parse located) s).parseOf = s.parseOf
      ∧ (after (parse located) s).classes = s.classes
      ∧ s.world.Alike (after (parse located) s).world := by
  unfold parse
  rw [outcome_bind_ok (outcome_get s), after_bind_ok (outcome_get s), after_get]
  unfold Store.parseOf
  cases hparsed : s.parsed.lookup (located.origin, located.text) with
  | some p => exact ⟨rfl, rfl, rfl, .refl _⟩
  | none =>
    refine ⟨rfl, ?_, rfl, (World.Alike.refl s.world).warned s.world.warnings _⟩
    funext other
    show ((s.parsed ++ [((located.origin, located.text), _)]).lookup _).getD _ = _
    rw [List.lookup_append]
    cases hother : s.parsed.lookup (other.origin, other.text) with
    | some p => rfl
    | none =>
      rw [Option.none_or, List.lookup_cons]
      by_cases hsame : (other.origin, other.text) = (located.origin, located.text)
      · rw [hsame, beq_self_eq_true]
        obtain ⟨horigin, htext⟩ := Prod.mk.inj hsame
        rw [horigin, htext]
        rfl
      · rw [beq_false_of_ne hsame]
        rfl

/-- A step of locating leaves the classes and the syntax trees of a store as they are. -/
theorem locating_parseOf {α : Type} {step : Locating α} (h : World.Proceeds step) (s : Store) :
    (after (Query.locating step) s).parseOf = s.parseOf
      ∧ (after (Query.locating step) s).classes = s.classes
      ∧ (after (Query.locating step) s).world = after step s.world := by
  refine ⟨?_, rfl, rfl⟩
  have htrees : (after (Query.locating step) s).world.trees = s.world.trees := (h s.world).trees
  funext located
  unfold Store.parseOf
  rw [htrees]
  rfl

theorem keep_ok (c : ReflectedClass) (s : Store) : ∃ d, outcome (keep c) s = .ok d := by
  unfold keep
  rw [outcome_bind_ok (outcome_get s), after_get]
  cases s.classes.lookup c.key with
  | some known => exact ⟨known, rfl⟩
  | none => exact ⟨c, rfl⟩

/-- A step of a search: the source that a locator offers, if it offers one, is parsed, and
the search goes on if it does not declare the class. -/
theorem search_cons (key : String) (rest : List Nat) {i : Nat} {here : Option LocatedSource}
    (h : outcome (World.locateAt i identifier) s.world = .ok here) :
    ∃ t : Store, t.classes = s.classes ∧ t.parseOf = s.parseOf
      ∧ (after (World.locateAt i identifier) s.world).Alike t.world
      ∧ ((here.bind fun located => findIn (s.parseOf located) key) = none →
        outcome (search key identifier (i :: rest)) s = outcome (search key identifier rest) t
          ∧ after (search key identifier (i :: rest)) s = after (search key identifier rest) t)
      ∧ ((here.bind fun located => findIn (s.parseOf located) key).isSome = true →
        ∃ c, outcome (search key identifier (i :: rest)) s = .ok (some c)) := by
  have hlocated : outcome (Query.locating (World.locateAt i identifier)) s = .ok here := h
  obtain ⟨hparses, hclasses, hworld⟩ := locating_parseOf (World.locateAt_proceeds i identifier) s
  rw [search, outcome_bind_ok hlocated, after_bind_ok hlocated]
  generalize after (Query.locating (World.locateAt i identifier)) s = u at hparses hclasses hworld
  cases here with
  | none =>
    refine ⟨u, hclasses, hparses, hworld ▸ .refl _, fun _ => ⟨rfl, rfl⟩, fun hfound => ?_⟩
    cases hfound
  | some located =>
    obtain ⟨hp, hparses', hclasses', halike⟩ := parse_parseOf located u
    rw [hparses] at hp
    simp only
    rw [outcome_bind_ok hp, after_bind_ok hp]
    refine ⟨after (parse located) u, hclasses'.trans hclasses, hparses'.trans hparses,
      hworld ▸ halike, fun hnone => ?_, fun hsome => ?_⟩
    · rw [Option.bind_some] at hnone
      rw [hnone]
      exact ⟨rfl, rfl⟩
    · obtain ⟨c, hc⟩ := Option.isSome_iff_exists.mp hsome
      rw [Option.bind_some] at hc
      rw [hc]
      obtain ⟨d, hd⟩ := keep_ok c (after (parse located) u)
      refine ⟨d, ?_⟩
      simp only
      rw [outcome_bind_ok hd]
      rfl

/-- A search that comes to no class adds none. -/
theorem search_missed {positions : List Nat}
    (h : ∀ c, outcome (search key identifier positions) s ≠ .ok (some c)) :
    (after (search key identifier positions) s).classes = s.classes := by
  induction positions generalizing s with
  | nil => rfl
  | cons i rest ih =>
    cases hlocated : outcome (World.locateAt i identifier) s.world with
    | error f =>
      have hfails : outcome (Query.locating (World.locateAt i identifier)) s = .error f := hlocated
      unfold search
      rw [after_bind_error hfails]
      rfl
    | ok here =>
      obtain ⟨t, hclasses, _, _, hmiss, hhit⟩ := search_cons key rest hlocated
      cases hfound : here.bind fun located => findIn (s.parseOf located) key with
      | none =>
        obtain ⟨houtcome, hafter⟩ := hmiss hfound
        rw [houtcome] at h
        rw [hafter, ih h, hclasses]
      | some c =>
        obtain ⟨d, hd⟩ := hhit (Option.isSome_iff_exists.mpr ⟨c, hfound⟩)
        exact absurd hd (h d)

/-- A search among locators that offer, one after the other, some sources finds a class if
one of the sources declares it. -/
theorem search_hits {positions : List Nat} {w : World} {sources : List LocatedSource}
    (rest : List Nat) (hw : w.Alike s.world)
    (h : outcome (World.candidatesIn identifier positions) w = .ok sources)
    {located : LocatedSource} (hmem : located ∈ sources)
    (hfound : (findIn (s.parseOf located) key).isSome = true) :
    ∃ c, outcome (search key identifier (positions ++ rest)) s = .ok (some c) := by
  induction positions generalizing s w sources with
  | nil => cases h; cases hmem
  | cons i positions ih =>
    obtain ⟨here, hhere, h⟩ := exists_of_bind_ok h
    obtain ⟨others, hothers, h⟩ := exists_of_bind_ok h
    cases h
    obtain ⟨hsame, _, halike⟩ := World.locateAt_agree i identifier w s.world hw
    obtain ⟨t, _, hparses, hparsed, hmiss, hhit⟩ :=
      search_cons key (positions ++ rest) (hsame.symm.trans hhere)
    rw [List.cons_append]
    cases hdeclares : here.bind fun located => findIn (s.parseOf located) key with
    | some c => exact hhit (Option.isSome_iff_exists.mpr ⟨c, hdeclares⟩)
    | none =>
      rw [(hmiss hdeclares).1]
      refine ih (halike.trans hparsed) hothers ?_ (hparses.symm ▸ hfound)
      rcases List.mem_append.mp hmem with hmem | hmem
      · -- the source that was offered here would have been the one
        rw [Option.mem_toList] at hmem
        rw [hmem, Option.bind_some] at hdeclares
        rw [hdeclares] at hfound
        cases hfound
      · exact hmem

/-- What has no key is not reflected, and nothing is looked up for it. -/
theorem reflect_empty (hempty : (Identifier.normalize identifier).isEmpty = true) :
    outcome (reflect identifier) s = .error (.emptyIdentifier identifier)
      ∧ after (reflect identifier) s = s := by
  unfold reflect
  simp only
  rw [if_pos hempty]
  exact ⟨rfl, rfl⟩

/-- Reflecting looks for a class that is not kept yet, and finds what the search finds. -/
theorem reflect_search (hempty : (Identifier.normalize identifier).isEmpty = false)
    (hnew : s.classes.lookup (Identifier.normalize identifier) = none) :
    outcome (reflect identifier) s
        = (outcome (search (Identifier.normalize identifier) (Identifier.trimmed identifier)
            (List.range s.world.locators.length)) s >>= fun found =>
              found.elim (.error (.classNotFound identifier)) .ok)
      ∧ after (reflect identifier) s
        = after (search (Identifier.normalize identifier) (Identifier.trimmed identifier)
            (List.range s.world.locators.length)) s := by
  have hpositions : outcome (Query.locating World.positions) s
      = .ok (List.range s.world.locators.length) := rfl
  have hstays : after (Query.locating World.positions) s = s := rfl
  rw [reflect_lookup hempty, outcome_bind_ok (outcome_get s), after_bind_ok (outcome_get s),
    after_get, hnew]
  simp only
  rw [outcome_bind_ok hpositions, after_bind_ok hpositions, hstays, outcome_bind, after_bind]
  cases outcome (search (Identifier.normalize identifier) (Identifier.trimmed identifier)
      (List.range s.world.locators.length)) s with
  | error f => exact ⟨rfl, rfl⟩
  | ok found => cases found <;> exact ⟨rfl, rfl⟩

/-- An identifier that is not reflected has no class under its key afterwards. -/
theorem reflect_missed {f : Failure} (hempty : (Identifier.normalize identifier).isEmpty = false)
    (h : outcome (reflect identifier) s = .error f) :
    (after (reflect identifier) s).classes.lookup (Identifier.normalize identifier) = none := by
  cases hkept : s.classes.lookup (Identifier.normalize identifier) with
  | some known =>
    rw [(reflect_settled hempty hkept).1] at h
    cases h
  | none =>
    obtain ⟨houtcome, hafter⟩ := reflect_search hempty hkept
    rw [hafter, search_missed, hkept]
    intro c hc
    rw [houtcome, hc] at h
    cases h

end

/-- Some locators, asked one after the other for an identifier, offer sources, and one of
the sources declares a class with the key of the identifier. -/
def Store.Offers (s : Store) (identifier : String) : Prop :=
  ∃ n sources located, n ≤ s.world.locators.length
    ∧ outcome (World.candidatesIn (Identifier.trimmed identifier) (List.range n)) s.world
      = .ok sources
    ∧ located ∈ sources
    ∧ (findIn (s.parseOf located) (Identifier.normalize identifier)).isSome = true

/-- An identifier whose class some source declares is reflected. -/
theorem reflect_offered {s : Store} {identifier : String}
    (hempty : (Identifier.normalize identifier).isEmpty = false) (h : s.Offers identifier) :
    ∃ c, outcome (reflect identifier) s = .ok c := by
  obtain ⟨n, sources, located, hn, hsources, hmem, hfound⟩ := h
  cases hkept : s.classes.lookup (Identifier.normalize identifier) with
  | some known => exact ⟨known, (reflect_settled hempty hkept).1⟩
  | none =>
    obtain ⟨c, hc⟩ := search_hits ((List.range (s.world.locators.length - n)).map (n + ·))
      (.refl s.world) hsources hmem hfound
    rw [← List.range_add, Nat.add_sub_cancel' hn] at hc
    exact ⟨c, by rw [(reflect_search hempty hkept).1, hc]; rfl⟩

/-! ## Stores after turns -/

/-- The classes of a store are found, and stay found. -/
structure Store.Finds (s : Store) : Prop where
  indexed : s.Indexed
  /-- What an answer hands out is what its key names, whatever happens. -/
  stays : ∀ (inquiry : Inquiry) (cs : List ReflectedClass), outcome inquiry.run s = .ok cs → ∀ c ∈ cs, c.key.isEmpty = false →
    ∀ later identifier, Identifier.normalize identifier = c.key →
      outcome (reflect identifier) ((after inquiry.run s).afterTurns later) = .ok c
  /-- A failure is not kept. -/
  missed : ∀ identifier f, outcome (reflect identifier) s = .error f →
    (Identifier.normalize identifier).isEmpty = false →
      (after (reflect identifier) s).classes.lookup (Identifier.normalize identifier) = none
  /-- What some source declares is found. -/
  offered : ∀ identifier, (Identifier.normalize identifier).isEmpty = false →
    s.Offers identifier →
      ∃ c, outcome (reflect identifier) s = .ok c ∧ c.key = Identifier.normalize identifier
  /-- The empty key names nothing. -/
  unnamed : ∀ identifier, (Identifier.normalize identifier).isEmpty = true →
    outcome (reflect identifier) s = .error (.emptyIdentifier identifier)
      ∧ after (reflect identifier) s = s

/-- Whatever was asked and however the world has changed, classes are found and stay. -/
theorem Store.finds_afterTurns (w : World) (turns : List Turn) :
    ((ofWorld w).afterTurns turns).Finds := by
  have hfiled := lasting_filed.afterTurns (filed_ofWorld w) turns
  refine ⟨lasting_indexed.afterTurns (indexed_ofWorld w) turns, ?_, ?_, ?_, ?_⟩
  · intro inquiry cs hcs c hc hempty later identifier hkey
    have hkept := inquiry.run_handsOut _ cs hfiled hcs c hc
    have hlater := (lasting_keptIn (after inquiry.run ((ofWorld w).afterTurns turns))).afterTurns
      .refl later
    rw [← hkey] at hempty hkept
    exact (reflect_settled hempty (hlater.classes _ _ hkept)).1
  · intro identifier f hf hempty
    exact reflect_missed hempty hf
  · intro identifier hempty hoffers
    obtain ⟨c, hc⟩ := reflect_offered hempty hoffers
    have hafter := (reflect_maintains lasting_filed.toSteady identifier).holds hfiled
    exact ⟨c, hc, hafter.classes _ _ (reflect_kept hc)⟩
  · intro identifier hempty
    exact reflect_empty hempty

/-! ## A class that comes to be declared, and one without a name -/

/-- A world without sources. -/
def emptyWorld : World := { inheritingWorld with locators := [] }

theorem reflect_emptyWorld :
    outcome (reflect "B") (ofWorld emptyWorld) = .error (.classNotFound "B")
      ∧ after (reflect "B") (ofWorld emptyWorld) = ofWorld emptyWorld := ⟨rfl, rfl⟩

theorem offers_inheritingWorld : (ofWorld inheritingWorld).Offers "B" := by
  refine ⟨1, [⟨inheritingText, "<string>", some "B"⟩], _, Nat.le_refl 1, rfl,
    List.mem_singleton.mpr rfl, ?_⟩
  have hfind : inheritingWorld.find? (Identifier.normalize "B") = some inheriting := find?_inheriting
  have hsources : inheritingWorld.sources = [inherited.source] := rfl
  rw [World.find?, World.classes, hsources, List.flatMap_singleton, ← findIn_eq] at hfind
  have hparse : (ofWorld inheritingWorld).parseOf ⟨inheritingText, "<string>", some "B"⟩
      = inherited.source := rfl
  rw [hparse, hfind]
  rfl

theorem reflect_inheritingWorld :
    outcome (Inquiry.reflect "B").run (ofWorld inheritingWorld) = .ok [inheriting] := by
  have hanswer : inheritingWorld.answer "B" = .ok inheriting :=
    World.answer_name (c := inheriting) find?_inheriting rfl
  have hreflect := reflect_comes isStatic_inheritingWorld "B" _ within_ofWorld
  rw [hanswer] at hreflect
  exact (outcome_bind_ok hreflect.1).trans rfl

/-- A class is not found, is found once a source declares it, and is found under another
spelling after the source is gone. -/
theorem finds_afterTurns_inheriting :
    (after (reflect "B") (ofWorld emptyWorld)).classes.lookup "b" = none
      ∧ (∃ c, outcome (reflect "B") ((ofWorld emptyWorld).afterTurns
          [.ask (.reflect "B"), .world inheritingWorld]) = .ok c ∧ c.key = "b")
      ∧ outcome (reflect "\\b") ((after (Inquiry.reflect "B").run (ofWorld inheritingWorld)).afterTurns
          [.world emptyWorld]) = .ok inheriting := by
  have hturns : (ofWorld emptyWorld).afterTurns [.ask (.reflect "B"), .world inheritingWorld]
      = ofWorld inheritingWorld := rfl
  refine ⟨?_, ?_, ?_⟩
  · exact (Store.finds_afterTurns emptyWorld []).missed "B" _ reflect_emptyWorld.1 rfl
  · have hfinds := Store.finds_afterTurns emptyWorld
      [.ask (.reflect "B"), .world inheritingWorld]
    rw [hturns] at hfinds ⊢
    exact hfinds.offered "B" rfl offers_inheritingWorld
  · exact (Store.finds_afterTurns inheritingWorld []).stays (.reflect "B") _ reflect_inheritingWorld
      inheriting (List.mem_singleton.mpr rfl) rfl [.world emptyWorld] "\\b" rfl

/-- A class without a name is handed out and stays under its key, and an identifier with
that key is not reflected. -/
theorem unnamed_handedOut :
    outcome Inquiry.allClasses.run (ofWorld unnamedWorld) = .ok [unnamed]
      ∧ Identifier.normalize "\\" = unnamed.key
      ∧ outcome (reflect "\\") (after Inquiry.allClasses.run (ofWorld unnamedWorld))
        = .error (.emptyIdentifier "\\")
      ∧ (after (reflect "\\") (after Inquiry.allClasses.run (ofWorld unnamedWorld))).classes.lookup
          (Identifier.normalize "\\") = some unnamed := by
  have hlisted : unnamedWorld.listed = [unnamed] := by
    have hcanonical : unnamedWorld.canonical unnamed = unnamed := by
      unfold World.canonical World.find?
      rw [classes_unnamedWorld]
      rfl
    rw [World.listed, classes_unnamedWorld, List.map_singleton, hcanonical]
  have hall := (allClasses_comes (L := []) (K := []) isStatic_unnamedWorld _ within_ofWorld).1
  rw [hlisted] at hall
  have hkept := Inquiry.allClasses.run_handsOut _ _ (filed_ofWorld unnamedWorld) hall unnamed
    (List.mem_singleton.mpr rfl)
  obtain ⟨hfails, hstays⟩ := reflect_empty (s := after Inquiry.allClasses.run (ofWorld unnamedWorld))
    (show (Identifier.normalize "\\").isEmpty = true from rfl)
  refine ⟨hall, rfl, hfails, ?_⟩
  rw [hstays]
  exact hkept

end StaticReflection
