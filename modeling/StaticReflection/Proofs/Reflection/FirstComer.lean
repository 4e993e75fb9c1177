import StaticReflection.Proofs.Reflection.Kept

/-!
# The first class to come

Over files that do not change a locator offers the same source whenever it is asked for an
identifier, but it is asked for the identifier as it is spelled, and only if no class is kept
under the key yet. So what an identifier names depends on the lookups before it:

> `Store.reflect_afterLookups`: it is the class that the first of them to come upon one with
> the key came upon, and what the search for the identifier finds if none of them did.

`Lookup.brings` is what a lookup comes upon. No history makes a difference for an identifier
exactly if each lookup that comes upon a class with its key comes upon the one that the
search for it finds.
-/

namespace StaticReflection

open Folding Outcome Reflector Store

/-! ## What is come upon -/

namespace World

variable (w : World)

/-- The class with a key in the sources that some locators offer for an identifier. -/
def searched (key identifier : String) : List Nat → Outcome (Option ReflectedClass)
  | [] => .ok none
  | i :: rest => do
    match (← outcome (locateAt i identifier) w).bind fun located =>
        findIn (w.trees.parse located.text located.origin) key with
    | some c => .ok (some c)
    | none => searched key identifier rest

/-- The class that an identifier leads to when nothing is kept. -/
def named (identifier : String) : Outcome (Option ReflectedClass) :=
  w.searched (Identifier.normalize identifier) (Identifier.trimmed identifier)
    (List.range w.locators.length)

/-- The sources that the locator at a position lists, or the failure instead. -/
def listing (i : Nat) : List (Except Failure LocatedSource) :=
  match outcome (supplies i) w with
  | .ok supplies => supplies.map (w.files.fetch none)
  | .error f => [.error f]

/-- The class-likes of the sources before the first failure. -/
def comeUpon : List (Except Failure LocatedSource) → List ReflectedClass
  | .ok located :: rest =>
    classesIn (w.trees.parse located.text located.origin) ++ comeUpon rest
  | _ => []

/-- The class-likes that listing all of them comes upon, in source order. -/
def enumerated : List ReflectedClass :=
  w.comeUpon ((List.range w.locators.length).flatMap w.listing)

end World

/-- A query that looks for classes. -/
inductive Lookup where
  | reflect (identifier : String)
  | hasClass (identifier : String)
  | allClasses

/-- The lookup as a call. -/
def Lookup.call : Lookup → Call
  | .reflect identifier => .reflect identifier
  | .hasClass identifier => .hasClass identifier
  | .allClasses => .allClasses

/-- The first class with a key that a lookup comes upon. -/
def Lookup.brings (w : World) (key : String) : Lookup → Option ReflectedClass
  | .reflect identifier | .hasClass identifier =>
    if Identifier.normalize identifier = key then (w.named identifier).toOption.join else none
  | .allClasses => w.enumerated.find? fun c => c.key == key

/-- A store after some lookups, whatever they came to. -/
def Store.afterLookups (s : Store) (lookups : List Lookup) : Store :=
  s.afterCalls (lookups.map Lookup.call)

/-- What reflecting an identifier comes to after some lookups. -/
def World.answerAfter (w : World) (lookups : List Lookup) (identifier : String) :
    Outcome ReflectedClass :=
  let key := Identifier.normalize identifier
  if key.isEmpty then .error (.emptyIdentifier identifier)
  else match lookups.findSome? (Lookup.brings w key) with
    | some c => .ok c
    | none => w.named identifier >>= fun found => found.elim (.error (.classNotFound identifier)) .ok

/-- Whether there is a class, by what reflecting its identifier comes to. -/
def Outcome.isThere (o : Outcome ReflectedClass) : Outcome Bool :=
  match o with
  | .ok _ => .ok true
  | .error f => if f.isNotFound then .ok false else .error f

/-! ## Stores over a world -/

/-- A store over a world: its own is like it, and sources are parsed as they are there. -/
structure Store.Over (w : World) (s : Store) : Prop where
  world : w.Alike s.world
  parsed : ∀ k p, s.parsed.lookup k = some p → w.trees.parse k.2 k.1 = p

/-- A store, and a later one that keeps more classes: under each key the first of some. -/
def Store.Gains (cs : List ReflectedClass) (s t : Store) : Prop :=
  ∀ key, t.classes.lookup key = (s.classes.lookup key).or (cs.find? fun c => c.key == key)

section

variable {w : World} {s t u : Store} {cs ds : List ReflectedClass}

theorem Store.over_ofWorld (w : World) : (ofWorld w).Over w := ⟨.refl w, fun _ _ h => by cases h⟩

theorem Store.gains_nil (h : t.classes = s.classes) : s.Gains [] t := fun key => by
  rw [h, List.find?_nil, Option.or_none]

theorem Store.Gains.append (h : s.Gains cs t) (h' : t.Gains ds u) : s.Gains (cs ++ ds) u :=
  fun key => by rw [h' key, h key, List.find?_append, Option.or_assoc]

theorem Store.Over.parseOf (h : s.Over w) (located : LocatedSource) :
    s.parseOf located = w.trees.parse located.text located.origin := by
  unfold Store.parseOf
  cases hp : s.parsed.lookup (located.origin, located.text) with
  | some p => exact (h.parsed _ _ hp).symm
  | none => rw [Option.getD_none, h.world.trees]

/-- A step of locating comes to the same over a world at any time. -/
theorem locating_over {α : Type} {step : Locating α} (hw : w.IsSteady)
    (h : Agree World.Alike (fun _ => True) step step) (hstep : World.Proceeds step)
    (hs : s.Over w) :
    outcome (Query.locating step) s = outcome step w
      ∧ (after (Query.locating step) s).Over w
      ∧ (after (Query.locating step) s).classes = s.classes := by
  obtain ⟨houtcome, hafter⟩ := World.comes_of_agree hw h hstep s.world hs.world
  exact ⟨houtcome, ⟨hafter, hs.parsed⟩, rfl⟩

theorem parse_over (hs : s.Over w) (located : LocatedSource) :
    outcome (parse located) s = .ok (w.trees.parse located.text located.origin)
      ∧ (after (parse located) s).Over w ∧ (after (parse located) s).classes = s.classes := by
  obtain ⟨houtcome, _, hclasses, halike⟩ := parse_parseOf located s
  refine ⟨hs.parseOf located ▸ houtcome, ⟨hs.world.trans halike, fun k p hk => ?_⟩, hclasses⟩
  unfold parse at hk
  rw [after_bind_ok (outcome_get s), after_get] at hk
  cases hkept : s.parsed.lookup (located.origin, located.text) with
  | some known =>
    rw [hkept] at hk
    exact hs.parsed k p hk
  | none =>
    rw [hkept] at hk
    rcases lookup_append_cases hk with hk | ⟨rfl, rfl⟩
    · exact hs.parsed k p hk
    · show w.trees.parse _ _ = s.world.trees.parse _ _
      rw [hs.world.trees]

theorem keep_over (hs : s.Over w) (c : ReflectedClass) :
    outcome (keep c) s = .ok ((s.classes.lookup c.key).getD c) ∧ (after (keep c) s).Over w
      ∧ s.Gains [c] (after (keep c) s) := by
  unfold keep
  rw [outcome_bind_ok (outcome_get s), after_bind_ok (outcome_get s), after_get]
  cases hkept : s.classes.lookup c.key with
  | some known =>
    refine ⟨rfl, hs, fun key => ?_⟩
    rw [List.find?_singleton]
    by_cases hkey : c.key = key
    · subst hkey
      show s.classes.lookup c.key = _
      rw [hkept, Option.some_or]
    · rw [beq_false_of_ne hkey]
      exact (Option.or_none).symm
  | none =>
    refine ⟨rfl, ⟨hs.world, hs.parsed⟩, fun key => ?_⟩
    show (s.classes ++ [(c.key, c)]).lookup key = _
    rw [List.lookup_append, List.find?_singleton, List.lookup_cons]
    by_cases hkey : c.key = key
    · subst hkey
      rw [beq_self_eq_true]
      rfl
    · rw [beq_false_of_ne hkey, beq_false_of_ne (Ne.symm hkey)]
      rfl

/-! ## Searches -/

theorem findIn_key {p : ParsedSource} {key : String} {c : ReflectedClass}
    (h : findIn p key = some c) : c.key = key := by
  rw [findIn_eq] at h
  have := List.find?_some h
  exact eq_of_beq this

theorem searched_key {key identifier : String} {positions : List Nat} {c : ReflectedClass}
    (h : w.searched key identifier positions = .ok (some c)) : c.key = key := by
  induction positions with
  | nil => cases h
  | cons i rest ih =>
    rw [World.searched] at h
    cases hhere : outcome (World.locateAt i identifier) w with
    | error f =>
      rw [hhere] at h
      cases h
    | ok here =>
      rw [hhere, Outcome.ok_bind] at h
      split at h
      next d hd =>
        cases h
        obtain ⟨located, _, hfound⟩ := Option.bind_eq_some_iff.mp hd
        exact findIn_key hfound
      next => exact ih h

/-- A search for a key that no class is kept under comes to what it does over the world, and
keeps what it finds. -/
theorem search_over (hw : w.IsSteady) {key : String} (identifier : String) (positions : List Nat)
    (hs : s.Over w) (hnew : s.classes.lookup key = none) :
    outcome (search key identifier positions) s = w.searched key identifier positions
      ∧ (after (search key identifier positions) s).Over w
      ∧ s.Gains (w.searched key identifier positions).toOption.join.toList
        (after (search key identifier positions) s) := by
  induction positions generalizing s with
  | nil => exact ⟨rfl, hs, gains_nil rfl⟩
  | cons i rest ih =>
    obtain ⟨hlocated, hover, hclasses⟩ := locating_over hw (World.locateAt_agree i identifier)
      (World.locateAt_proceeds i identifier) hs
    rw [search, World.searched, outcome_bind, after_bind, hlocated]
    generalize after (Query.locating (World.locateAt i identifier)) s = t at hover hclasses
    rw [← hclasses] at hnew
    have hmore {u : Store} (hu : u.classes = s.classes) {cs : List ReflectedClass} {v : Store}
        (h : u.Gains cs v) : s.Gains cs v := fun key => by rw [h key, hu]
    cases outcome (World.locateAt i identifier) w with
    | error f => exact ⟨rfl, hover, gains_nil hclasses⟩
    | ok here =>
      cases here with
      | none =>
        obtain ⟨houtcome, hafter, hgains⟩ := ih hover hnew
        exact ⟨houtcome, hafter, hmore hclasses hgains⟩
      | some located =>
        obtain ⟨hparse, hover', hclasses'⟩ := parse_over hover located
        simp only [Option.bind_some, Outcome.ok_bind]
        rw [outcome_bind_ok hparse, after_bind_ok hparse]
        generalize after (parse located) t = u at hover' hclasses'
        rw [← hclasses'] at hnew
        have hsame := hclasses'.trans hclasses
        cases hfound : findIn (w.trees.parse located.text located.origin) key with
        | none =>
          obtain ⟨houtcome, hafter, hgains⟩ := ih hover' hnew
          exact ⟨houtcome, hafter, hmore hsame hgains⟩
        | some c =>
          have hkey := findIn_key hfound
          obtain ⟨hkeep, hover'', hgains⟩ := keep_over hover' c
          rw [hkey, hnew, Option.getD_none] at hkeep
          simp only
          rw [outcome_bind_ok hkeep, after_bind_ok hkeep, after_pure]
          exact ⟨rfl, hover'', hmore hsame hgains⟩

/-- What reflecting an identifier comes to over a world, and what it keeps. -/
theorem reflect_over (hw : w.IsSteady) (hs : s.Over w) {identifier : String}
    (hempty : (Identifier.normalize identifier).isEmpty = false) :
    outcome (reflect identifier) s
        = ((s.classes.lookup (Identifier.normalize identifier)).elim
          (w.named identifier >>= fun found => found.elim (.error (.classNotFound identifier)) .ok)
          .ok)
      ∧ (after (reflect identifier) s).Over w
      ∧ ∀ key, (after (reflect identifier) s).classes.lookup key
        = (s.classes.lookup key).or ((Lookup.reflect identifier).brings w key) := by
  cases hkept : s.classes.lookup (Identifier.normalize identifier) with
  | some known =>
    obtain ⟨houtcome, hafter⟩ := reflect_settled hempty hkept
    refine ⟨houtcome, hafter.symm ▸ hs, fun key => ?_⟩
    rw [hafter, Lookup.brings]
    by_cases hkey : Identifier.normalize identifier = key
    · rw [← hkey, hkept, Option.some_or]
    · rw [if_neg hkey, Option.or_none]
  | none =>
    obtain ⟨houtcome, hafter⟩ := reflect_search hempty hkept
    rw [hs.world.length] at houtcome hafter
    obtain ⟨hsearch, hover, hgains⟩ := search_over hw (Identifier.trimmed identifier)
      (List.range w.locators.length) hs hkept
    rw [hsearch] at houtcome
    rw [hafter]
    refine ⟨houtcome, hover, fun key => ?_⟩
    rw [hgains key, Lookup.brings]
    refine congrArg _ ?_
    unfold World.named
    cases hnamed : w.searched (Identifier.normalize identifier) (Identifier.trimmed identifier)
        (List.range w.locators.length) with
    | error f => exact (ite_self _).symm
    | ok found =>
      cases found with
      | none => exact (ite_self _).symm
      | some c =>
        rw [← searched_key hnamed]
        show [c].find? _ = if c.key = key then some c else none
        rw [List.find?_singleton]
        simp only [beq_iff_eq]

theorem hasClass_eq (identifier : String) (s : Store) :
    outcome (hasClass identifier) s = (outcome (reflect identifier) s).isThere
      ∧ after (hasClass identifier) s = after (reflect identifier) s := by
  unfold hasClass
  rw [outcome_tryCatch, after_tryCatch, outcome_bind, after_bind]
  generalize outcome (reflect identifier) s = o, after (reflect identifier) s = t
  cases o with
  | ok c => exact ⟨rfl, rfl⟩
  | error f =>
    simp only [Outcome.isThere]
    split <;> exact ⟨rfl, rfl⟩

/-! ## Listing -/

theorem keepEach_over (hs : s.Over w) (cs : List ReflectedClass) :
    (∃ ds, outcome (cs.mapM keep) s = .ok ds) ∧ (after (cs.mapM keep) s).Over w
      ∧ s.Gains cs (after (cs.mapM keep) s) := by
  induction cs generalizing s with
  | nil =>
    rw [List.mapM_nil]
    exact ⟨⟨[], rfl⟩, hs, gains_nil rfl⟩
  | cons c cs ih =>
    obtain ⟨hkeep, hover, hgains⟩ := keep_over hs c
    obtain ⟨⟨ds, hrest⟩, hkept, hmore⟩ := ih hover
    rw [List.mapM_cons, outcome_bind_ok hkeep, after_bind_ok hkeep, outcome_bind_ok hrest,
      after_bind_ok hrest]
    exact ⟨⟨_, rfl⟩, hkept, hgains.append hmore⟩

/-- Whether a listing has no failure in it. -/
def isComplete (sources : List (Except Failure LocatedSource)) : Bool := sources.all (·.isOk)

theorem comeUpon_append (sources more : List (Except Failure LocatedSource)) :
    w.comeUpon (sources ++ more)
      = w.comeUpon sources ++ if isComplete sources then w.comeUpon more else [] := by
  induction sources with
  | nil => rfl
  | cons here rest ih =>
    cases here with
    | error f => rfl
    | ok located =>
      rw [List.cons_append, World.comeUpon, World.comeUpon, ih, List.append_assoc]
      rfl

/-- Listing some sources over a world keeps the class-likes of those before the first
failure, and fails with it. -/
theorem listSupplies_over (hs : s.Over w) (hw : w.IsSteady) (supplies : List Supply) :
    (outcome (listSupplies supplies) s).isOk = isComplete (supplies.map (w.files.fetch none))
      ∧ (after (listSupplies supplies) s).Over w
      ∧ s.Gains (w.comeUpon (supplies.map (w.files.fetch none))) (after (listSupplies supplies) s) := by
  induction supplies generalizing s with
  | nil => exact ⟨rfl, hs, gains_nil rfl⟩
  | cons supply rest ih =>
    obtain ⟨hfetch, hfetched, hclasses⟩ := locating_over hw (World.fetch_agree none supply)
      (World.fetch_proceeds none supply) hs
    have hfiles : outcome (World.fetch none supply) w = w.files.fetch none supply := rfl
    rw [hfiles] at hfetch
    rw [listSupplies, outcome_bind, after_bind, hfetch, List.map_cons]
    generalize after (Query.locating (World.fetch none supply)) s = t at hfetched hclasses
    cases w.files.fetch none supply with
    | error f => exact ⟨rfl, hfetched, gains_nil hclasses⟩
    | ok located =>
      obtain ⟨hparse, hparsed, hclasses'⟩ := parse_over hfetched located
      simp only
      rw [outcome_bind_ok hparse, after_bind_ok hparse, keepAll_eq]
      generalize after (parse located) t = u at hparsed hclasses'
      obtain ⟨⟨ds, hkeep⟩, hkept, hgains⟩ := keepEach_over hparsed
        (World.classesIn (w.trees.parse located.text located.origin))
      rw [outcome_bind_ok hkeep, after_bind_ok hkeep, outcome_bind, after_bind]
      obtain ⟨hrest, hended, hmore⟩ := ih hkept
      have hall := (gains_nil (hclasses'.trans hclasses)).append (hgains.append hmore)
      rw [List.nil_append] at hall
      cases houtcome : outcome (listSupplies rest) _ with
      | error f =>
        rw [houtcome] at hrest
        exact ⟨hrest, hended, hall⟩
      | ok more =>
        rw [houtcome] at hrest
        exact ⟨hrest, hended, hall⟩

/-- Listing what some locators list over a world does so one locator after the other. -/
theorem listLocators_over (hs : s.Over w) (hw : w.IsSteady) (positions : List Nat) :
    (after (listLocators positions) s).Over w
      ∧ s.Gains (w.comeUpon (positions.flatMap w.listing)) (after (listLocators positions) s) := by
  induction positions generalizing s with
  | nil => exact ⟨hs, gains_nil rfl⟩
  | cons i rest ih =>
    obtain ⟨hsupplies, hasked, hclasses⟩ := locating_over hw (World.supplies_agree i)
      (World.supplies_proceeds i) hs
    rw [listLocators, after_bind, hsupplies, List.flatMap_cons, comeUpon_append]
    generalize after (Query.locating (World.supplies i)) s = t at hasked hclasses
    have hstart := gains_nil hclasses
    cases hlisting : outcome (World.supplies i) w with
    | error f =>
      unfold World.listing
      rw [hlisting]
      exact ⟨hasked, hstart⟩
    | ok supplies =>
      obtain ⟨hlist, hlisted, hgains⟩ := listSupplies_over hasked hw supplies
      have hsources : w.listing i = supplies.map (w.files.fetch none) := by
        unfold World.listing
        rw [hlisting]
      have hsofar := hstart.append hgains
      rw [List.nil_append] at hsofar
      simp only
      rw [hsources, ← hlist, after_bind]
      cases houtcome : outcome (listSupplies supplies) t with
      | error f =>
        refine ⟨hlisted, ?_⟩
        show s.Gains (_ ++ []) _
        rw [List.append_nil]
        exact hsofar
      | ok found =>
        obtain ⟨hended, hmore⟩ := ih hlisted
        simp only
        rw [after_bind]
        have hall := hsofar.append hmore
        cases outcome (listLocators rest) (after (listSupplies supplies) t) with
        | error f => exact ⟨hended, hall⟩
        | ok more => exact ⟨hended, hall⟩

/-! ## Stores after lookups -/

/-- An answer made from what a query comes to changes nothing more. -/
theorem after_answer {α : Type} (q : Query α) (answer : α → Answer) (s : Store) :
    after (do return answer (← q)) s = after q s := by
  rw [after_bind]
  cases outcome q s <;> rfl

/-- A lookup over a world keeps what it comes upon, under each key that has no class yet. -/
theorem Lookup.run_over (hw : w.IsSteady) (hs : s.Over w) (lookup : Lookup) :
    (after lookup.call.run s).Over w
      ∧ ∀ key, key.isEmpty = false → (after lookup.call.run s).classes.lookup key
        = (s.classes.lookup key).or (lookup.brings w key) := by
  have reflected (identifier : String) : (after (Reflector.reflect identifier) s).Over w
      ∧ ∀ key, key.isEmpty = false → (after (Reflector.reflect identifier) s).classes.lookup key
        = (s.classes.lookup key).or ((Lookup.reflect identifier).brings w key) := by
    cases hempty : (Identifier.normalize identifier).isEmpty with
    | false =>
      obtain ⟨_, hover, hkeys⟩ := reflect_over hw hs hempty
      exact ⟨hover, fun key _ => hkeys key⟩
    | true =>
      -- nothing is looked up, and what has a key is called otherwise
      rw [(reflect_empty hempty).2]
      refine ⟨hs, fun key hkey => ?_⟩
      have hne : Identifier.normalize identifier ≠ key := by
        rintro rfl
        rw [hempty] at hkey
        cases hkey
      rw [Lookup.brings, if_neg hne, Option.or_none]
  cases lookup with
  | reflect identifier =>
    have hafter : after (Lookup.reflect identifier).call.run s
        = after (Reflector.reflect identifier) s := after_answer _ _ s
    rw [hafter]
    exact reflected identifier
  | hasClass identifier =>
    have hafter : after (Lookup.hasClass identifier).call.run s
        = after (Reflector.hasClass identifier) s := after_answer _ _ s
    rw [hafter, (hasClass_eq identifier s).2]
    exact reflected identifier
  | allClasses =>
    have hafter : after Lookup.allClasses.call.run s
        = after (listLocators (List.range w.locators.length)) s := by
      refine (after_answer Reflector.allClasses Answer.classes s).trans ?_
      rw [← hs.world.length]
      rfl
    obtain ⟨hover, hgains⟩ := listLocators_over hs hw (List.range w.locators.length)
    rw [hafter]
    exact ⟨hover, fun key _ => hgains key⟩

/-- After some lookups the class under a key is the first that one of them came upon. -/
theorem Store.Over.afterLookups (hw : w.IsSteady) (hs : s.Over w) (lookups : List Lookup) :
    (s.afterLookups lookups).Over w
      ∧ ∀ key, key.isEmpty = false → (s.afterLookups lookups).classes.lookup key
        = (s.classes.lookup key).or (lookups.findSome? (Lookup.brings w key)) := by
  induction lookups generalizing s with
  | nil => exact ⟨hs, fun key _ => (Option.or_none).symm⟩
  | cons lookup rest ih =>
    obtain ⟨hover, hkeys⟩ := lookup.run_over hw hs
    obtain ⟨hafter, hrest⟩ := ih hover
    refine ⟨hafter, fun key hkey => ?_⟩
    have hmore := hrest key hkey
    rw [hkeys key hkey, Option.or_assoc] at hmore
    refine hmore.trans (congrArg _ ?_)
    rw [List.findSome?_cons]
    cases lookup.brings w key <;> rfl

end

/-- After some lookups an identifier names the class with its key that the first of them to
come upon one came upon, and what a search for it finds if none did. -/
theorem outcome_afterLookups {w : World} (hw : w.IsSteady) (lookups : List Lookup)
    (identifier : String) :
    outcome (reflect identifier) ((ofWorld w).afterLookups lookups)
      = w.answerAfter lookups identifier := by
  obtain ⟨hover, hkeys⟩ := (over_ofWorld w).afterLookups hw lookups
  unfold World.answerAfter
  simp only
  cases hempty : (Identifier.normalize identifier).isEmpty with
  | true => exact (reflect_empty hempty).1
  | false =>
    have hkept := hkeys _ hempty
    have hnone : (ofWorld w).classes.lookup (Identifier.normalize identifier) = none := rfl
    rw [hnone, Option.none_or] at hkept
    rw [(reflect_over hw hover hempty).1, hkept]
    cases lookups.findSome? (Lookup.brings w (Identifier.normalize identifier)) <;> rfl

section

variable {w : World} {identifier : String}

theorem World.answerAfter_empty (hempty : (Identifier.normalize identifier).isEmpty = true)
    (lookups : List Lookup) :
    w.answerAfter lookups identifier = .error (.emptyIdentifier identifier) := by
  unfold World.answerAfter
  simp only
  rw [if_pos hempty]

/-- If no lookup came upon a class with the key, it is as if there had been none. -/
theorem World.answerAfter_none {lookups : List Lookup}
    (h : lookups.findSome? (Lookup.brings w (Identifier.normalize identifier)) = none) :
    w.answerAfter lookups identifier = w.answerAfter [] identifier := by
  unfold World.answerAfter
  simp only
  rw [h, List.findSome?_nil]

/-- What a lookup came upon is named from then on. -/
theorem World.answerAfter_some {lookups : List Lookup} {c : ReflectedClass}
    (hempty : (Identifier.normalize identifier).isEmpty = false)
    (h : lookups.findSome? (Lookup.brings w (Identifier.normalize identifier)) = some c) :
    w.answerAfter lookups identifier = .ok c := by
  unfold World.answerAfter
  simp only
  rw [h, if_neg (Bool.eq_false_iff.mp hempty)]

/-- No lookups make a difference exactly if each that comes upon a class with the key comes
upon the one that the identifier names without them. -/
theorem World.answerAfter_eq_iff (w : World) (identifier : String) :
    (∀ lookups, w.answerAfter lookups identifier = w.answerAfter [] identifier)
      ↔ (Identifier.normalize identifier).isEmpty = false → ∀ (lookup : Lookup) (c : ReflectedClass),
        lookup.brings w (Identifier.normalize identifier) = some c →
          w.answerAfter [] identifier = .ok c := by
  constructor
  · intro h hempty lookup c hc
    have hfirst : [lookup].findSome? (Lookup.brings w (Identifier.normalize identifier)) = some c := by
      rw [List.findSome?_cons, hc]
    rw [← h [lookup], World.answerAfter_some hempty hfirst]
  · intro h lookups
    cases hempty : (Identifier.normalize identifier).isEmpty with
    | true => rw [World.answerAfter_empty hempty, World.answerAfter_empty hempty]
    | false =>
      cases hfirst : lookups.findSome? (Lookup.brings w (Identifier.normalize identifier)) with
      | none => exact World.answerAfter_none hfirst
      | some c =>
        obtain ⟨lookup, _, hc⟩ := List.exists_of_findSome?_eq_some hfirst
        rw [World.answerAfter_some hempty hfirst, h hempty lookup c hc]

/-- Two spellings of a key name the same class at any time exactly if they do when nothing
has been looked up. -/
theorem World.answerAfter_spellings_iff (w : World) {other : String}
    (hkey : Identifier.normalize other = Identifier.normalize identifier) :
    (∀ lookups, (w.answerAfter lookups other).toOption = (w.answerAfter lookups identifier).toOption)
      ↔ (w.answerAfter [] other).toOption = (w.answerAfter [] identifier).toOption := by
  refine ⟨fun h => h [], fun h lookups => ?_⟩
  cases hempty : (Identifier.normalize identifier).isEmpty with
  | true =>
    have hother : (Identifier.normalize other).isEmpty = true := by rw [hkey, hempty]
    rw [World.answerAfter_empty hempty, World.answerAfter_empty hother]
    rfl
  | false =>
    have hother : (Identifier.normalize other).isEmpty = false := by rw [hkey, hempty]
    cases hfirst : lookups.findSome? (Lookup.brings w (Identifier.normalize identifier)) with
    | none =>
      have hfirst' := hfirst
      rw [← hkey] at hfirst'
      rw [World.answerAfter_none hfirst, World.answerAfter_none hfirst', h]
    | some c =>
      have hfirst' := hfirst
      rw [← hkey] at hfirst'
      rw [World.answerAfter_some hempty hfirst, World.answerAfter_some hother hfirst']

end

/-- What an identifier names after any lookups over files that do not change; when it does
not depend on the lookups, and when two spellings of it name the same class at any time. -/
theorem Store.reflect_afterLookups (w : World) (hw : w.IsSteady) (identifier : String) :
    (∀ lookups, outcome (reflect identifier) ((ofWorld w).afterLookups lookups)
        = w.answerAfter lookups identifier
      ∧ outcome (hasClass identifier) ((ofWorld w).afterLookups lookups)
        = (w.answerAfter lookups identifier).isThere)
      ∧ ((∀ lookups, w.answerAfter lookups identifier = w.answerAfter [] identifier)
        ↔ (Identifier.normalize identifier).isEmpty = false → ∀ (lookup : Lookup) (c : ReflectedClass),
          lookup.brings w (Identifier.normalize identifier) = some c →
            w.answerAfter [] identifier = .ok c)
      ∧ ∀ other, Identifier.normalize other = Identifier.normalize identifier →
        ((∀ lookups, (w.answerAfter lookups other).toOption
            = (w.answerAfter lookups identifier).toOption)
          ↔ (w.answerAfter [] other).toOption = (w.answerAfter [] identifier).toOption) := by
  refine ⟨fun lookups => ?_, w.answerAfter_eq_iff identifier,
    fun other hkey => w.answerAfter_spellings_iff hkey⟩
  have hreflect := outcome_afterLookups hw lookups identifier
  refine ⟨hreflect, ?_⟩
  rw [(hasClass_eq identifier _).1, hreflect]

/-! ## A class under two spellings -/

/-- A project whose classes are found by their names, with one file. -/
def autoloadedWorld : World :=
  ⟨⟨[(["src", "B.php"], inheritingText.toList.map fun c => UInt8.ofNat c.toNat)], [["src"]], []⟩,
    inheritingWorld.trees, [.project ⟨Path.here, [("", [Json.ofString "src"])], [], []⟩ none], []⟩

theorem isSteady_autoloadedWorld : autoloadedWorld.IsSteady := fun answers h => by
  cases List.mem_singleton.mp h

theorem eq_ok_of_toOption {α : Type} {o : Outcome α} {a : α} (h : o.toOption = some a) :
    o = .ok a := by
  cases o with
  | ok b => rw [Option.some.inj h]
  | error f => cases h

/-- The file is offered for the class as its name is written, and not for another spelling. -/
theorem locateAt_autoloadedWorld :
    outcome (World.locateAt 0 "B") autoloadedWorld
        = .ok (some ⟨inheritingText, "src/B.php", some "B"⟩)
      ∧ outcome (World.locateAt 0 "b") autoloadedWorld = .ok none :=
  ⟨eq_ok_of_toOption (by decide +kernel), eq_ok_of_toOption (by decide +kernel)⟩

theorem named_autoloadedWorld :
    (∃ c, autoloadedWorld.named "B" = .ok (some c)) ∧ autoloadedWorld.named "b" = .ok none := by
  obtain ⟨hwritten, hother⟩ := locateAt_autoloadedWorld
  have htrimmed : Identifier.trimmed "B" = "B" ∧ Identifier.trimmed "b" = "b" := by decide +kernel
  have hrange : List.range autoloadedWorld.locators.length = [0] := rfl
  unfold World.named
  rw [htrimmed.1, htrimmed.2, hrange]
  constructor
  · -- the file has the classes of the text, wherever the text comes from
    have hclass : (ClassLike.all (autoloadedWorld.trees.parse inheritingText "src/B.php")).find?
        (fun c => c.key == Identifier.normalize "B") = some inheriting.classLike := by
      have hfind : inheritingWorld.find? (Identifier.normalize "B") = some inheriting :=
        find?_inheriting
      have hsources : inheritingWorld.sources = [inherited.source] := rfl
      rw [World.find?, World.classes, hsources, List.flatMap_singleton, ← findIn_eq] at hfind
      obtain ⟨c, hc, he⟩ := Option.map_eq_some_iff.mp hfind
      rw [← he]
      exact hc
    rw [World.searched, hwritten, Outcome.ok_bind, Option.bind_some]
    unfold findIn
    rw [hclass]
    exact ⟨_, rfl⟩
  · rw [World.searched, hother]
    rfl

/-- The class is not there by another spelling, and is once it was looked up as written. -/
theorem reflect_afterLookups_autoloaded :
    autoloadedWorld.IsSteady
      ∧ outcome (hasClass "b") (ofWorld autoloadedWorld) = .ok false
      ∧ outcome (hasClass "b") ((ofWorld autoloadedWorld).afterLookups [.hasClass "B"])
        = .ok true := by
  obtain ⟨⟨c, hwritten⟩, hother⟩ := named_autoloadedWorld
  have hempty : (Identifier.normalize "b").isEmpty = false := rfl
  have hanswers := (Store.reflect_afterLookups autoloadedWorld isSteady_autoloadedWorld "b").1
  refine ⟨isSteady_autoloadedWorld, ?_, ?_⟩
  · have hfresh : autoloadedWorld.answerAfter [] "b" = .error (.classNotFound "b") := by
      unfold World.answerAfter
      simp only
      rw [hempty, hother]
      rfl
    have h := (hanswers []).2
    rw [hfresh] at h
    exact h
  · have hbrings : [Lookup.hasClass "B"].findSome?
        (Lookup.brings autoloadedWorld (Identifier.normalize "b")) = some c := by
      have hkey : Identifier.normalize "B" = Identifier.normalize "b" := rfl
      rw [List.findSome?_cons, Lookup.brings, if_pos hkey, hwritten]
      rfl
    have h := (hanswers [.hasClass "B"]).2
    rw [World.answerAfter_some hempty hbrings] at h
    exact h

end StaticReflection
