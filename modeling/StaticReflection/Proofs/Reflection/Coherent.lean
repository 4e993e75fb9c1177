import StaticReflection.Proofs.Reflection.Gathered

/-!
# Coherent stores

What a store keeps of a static world is true of that world: a class under a key is the
first one with it, a parsed source is the parse of its text, the properties under a key
are those that gathering them comes to, and a default is what its expression folds to
when nothing has been asked yet. `Store.Coherent` says so, and `Store.Within` adds what a
query must find again when it ends: the constants being folded and the classes that are
kept.

> `reflect_comes`: from every coherent store reflecting an identifier comes to
> `World.answer`, and to a coherent store.

The listing of all classes is the one place where coherence depends on order: a class is
kept under its key before any other with that key comes up, since sources are listed in
the order in which they are searched.
-/

namespace StaticReflection

open Folding Reflector

/-- The class that is kept under the key of a class. -/
def World.canonical (w : World) (c : ReflectedClass) : ReflectedClass := (w.find? c.key).getD c

/-- All class-likes in source order, each the one that is kept under its key. -/
def World.listed (w : World) : List ReflectedClass := w.classes.map w.canonical

/-- The parent of a class. -/
def World.parent? (w : World) (c : ReflectedClass) : Outcome (Option ReflectedClass) :=
  match c.parentName? with
  | none => .ok none
  | some name => do return some (← w.answer name)

/-- The default value of the property under a key, found when nothing has been asked. -/
def World.DefaultsTo (w : World) (k : PropertyKey) (v : Value) : Prop :=
  ∃ c ds d e, w.find? k.1 = some c ∧ w.Gathers c (.ok ds)
    ∧ ds.find? (fun d => d.name == k.2) = some d ∧ d.default = some e
    ∧ outcome ((folder c e.source (resolveConstant c) (defaultMagic c e)).fold e.node)
        (Store.ofWorld w) = .ok v

/-- All that a store keeps of a world is true of it. -/
structure Store.Coherent (w : World) (s : Store) : Prop where
  world : w.Like s.world
  classes : ∀ k c, s.classes.lookup k = some c → w.find? k = some c
  parsed : ∀ k p, s.parsed.lookup k = some p → w.trees.parse k.2 k.1 = p
  declared : ∀ k ds, s.declared.lookup k = some ds →
    ∃ c, w.find? k = some c ∧ w.Gathers c (.ok ds)
  defaults : ∀ k v, s.defaults.lookup k = some v → w.DefaultsTo k v

/-- A coherent store that folds some constants and keeps at least some classes. -/
structure Store.Within (w : World) (L : List ConstantKey) (K : List String) (s : Store) :
    Prop where
  coherent : s.Coherent w
  folding : s.folding = L
  kept : ∀ k ∈ K, (s.classes.lookup k).isSome = true

/-- What is found after a pair was added at the end was there, or is the pair. -/
theorem lookup_append_cases {α β : Type} [BEq α] [LawfulBEq α] {ps : List (α × β)} {k k' : α}
    {v v' : β} (h : (ps ++ [(k, v)]).lookup k' = some v') :
    ps.lookup k' = some v' ∨ k' = k ∧ v' = v := by
  rw [List.lookup_append] at h
  cases hps : ps.lookup k' with
  | some u => rw [hps, Option.some_or] at h; exact .inl h
  | none =>
    rw [hps, Option.none_or, List.lookup_cons] at h
    by_cases hk : k' = k
    · rw [hk, beq_self_eq_true] at h
      exact .inr ⟨hk, (Option.some.inj h).symm⟩
    · rw [beq_false_of_ne hk] at h
      cases h

theorem lookup_filter_ne {α β : Type} [BEq α] [LawfulBEq α] {ps : List (α × β)} {k k' : α}
    (h : k' ≠ k) : (ps.filter fun p => !(p.1 == k)).lookup k' = ps.lookup k' := by
  induction ps with
  | nil => rfl
  | cons p rest ih =>
    obtain ⟨a, b⟩ := p
    by_cases ha : a = k
    · have hk : (k' == a) = false := beq_false_of_ne (ha ▸ h)
      rw [List.filter_cons_of_neg (by simp [ha]), List.lookup_cons, hk, ih]
    · rw [List.filter_cons_of_pos (by simp [ha]), List.lookup_cons, List.lookup_cons, ih]

/-- What is found after a pair was put in front is the pair, or was there. -/
theorem lookup_putFront_cases {α β : Type} [BEq α] [LawfulBEq α] {ps : List (α × β)} {k k' : α}
    {v v' : β} (h : (Property.putFront k v ps).lookup k' = some v') :
    k' = k ∧ v' = v ∨ ps.lookup k' = some v' := by
  unfold Property.putFront at h
  rw [List.lookup_cons] at h
  by_cases hk : k' = k
  · rw [hk, beq_self_eq_true] at h
    exact .inl ⟨hk, (Option.some.inj h).symm⟩
  · rw [beq_false_of_ne hk] at h
    exact .inr ((lookup_filter_ne hk).symm.trans h)

theorem isSome_lookup_append {α β : Type} [BEq α] [LawfulBEq α] {ps more : List (α × β)} {k : α}
    (h : (ps.lookup k).isSome = true) : ((ps ++ more).lookup k).isSome = true := by
  rw [List.lookup_append, Option.isSome_or, h]
  rfl

namespace Store

variable {w : World} {L : List ConstantKey} {K : List String} {s : Store}

theorem Within.mono {K' : List String} (h : s.Within w L K) (hK : ∀ k ∈ K', k ∈ K) :
    s.Within w L K' := ⟨h.coherent, h.folding, fun k hk => h.kept k (hK k hk)⟩

/-- A store keeps the classes that it keeps. -/
theorem Within.keys (h : s.Within w L K) : s.Within w L (s.classes.map (·.1)) := by
  refine ⟨h.coherent, h.folding, fun k hk => ?_⟩
  obtain ⟨p, hp, rfl⟩ := List.mem_map.mp hk
  cases hlookup : s.classes.lookup p.1 with
  | some c => rfl
  | none =>
    have := List.lookup_eq_none_iff.mp hlookup p hp
    exact absurd rfl (bne_iff_ne.mp this)

theorem coherent_ofWorld : (ofWorld w).Coherent w where
  world := World.like_refl
  classes _ _ h := by cases h
  parsed _ _ h := by cases h
  declared _ _ h := by cases h
  defaults _ _ h := by cases h

theorem within_ofWorld : (ofWorld w).Within w [] [] :=
  ⟨coherent_ofWorld, rfl, fun _ h => by cases h⟩

/-- The class that a coherent store keeps under the key of a class. -/
theorem Coherent.canonical {c known : ReflectedClass} (h : s.Coherent w)
    (hc : s.classes.lookup c.key = some known) : w.canonical c = known := by
  unfold World.canonical
  rw [h.classes _ _ hc]
  rfl

/-- Nothing that is kept depends on which constants are being folded. -/
theorem Coherent.refold (h : s.Coherent w) (L : List ConstantKey) :
    ({ s with folding := L } : Store).Coherent w :=
  ⟨h.world, h.classes, h.parsed, h.declared, h.defaults⟩

/-! ## What queries add -/

theorem Within.addParsed (h : s.Within w L K) (text origin : String) :
    ({ s with parsed := s.parsed ++ [((origin, text), w.trees.parse text origin)] } :
      Store).Within w L K := by
  refine ⟨⟨h.coherent.world, h.coherent.classes, fun k p hk => ?_, h.coherent.declared,
    h.coherent.defaults⟩, h.folding, h.kept⟩
  rcases lookup_append_cases hk with hk | ⟨rfl, rfl⟩
  · exact h.coherent.parsed k p hk
  · rfl

theorem Within.addClass {c : ReflectedClass} (h : s.Within w L K)
    (hc : w.find? c.key = some c) (hnew : s.classes.lookup c.key = none) :
    ({ s with classes := s.classes ++ [(c.key, c)] } : Store).Within w L (c.key :: K) := by
  refine ⟨⟨h.coherent.world, fun k d hk => ?_, h.coherent.parsed, h.coherent.declared,
    h.coherent.defaults⟩, h.folding, fun k hk => ?_⟩
  · rcases lookup_append_cases hk with hk | ⟨rfl, rfl⟩
    · exact h.coherent.classes k d hk
    · exact hc
  · rcases List.mem_cons.mp hk with rfl | hk
    · show ((s.classes ++ [(c.key, c)]).lookup c.key).isSome = true
      rw [List.lookup_append, hnew, Option.none_or, List.lookup_cons_self]
      rfl
    · exact isSome_lookup_append (h.kept k hk)

theorem Within.addDeclared {c : ReflectedClass} {ds : List PropertyDeclaration}
    (h : s.Within w L K) (hc : w.find? c.key = some c) (hds : w.Gathers c (.ok ds)) :
    ({ s with declared := s.declared ++ [(c.key, ds)] } : Store).Within w L K := by
  refine ⟨⟨h.coherent.world, h.coherent.classes, h.coherent.parsed, fun k es hk => ?_,
    h.coherent.defaults⟩, h.folding, h.kept⟩
  rcases lookup_append_cases hk with hk | ⟨rfl, rfl⟩
  · exact h.coherent.declared k es hk
  · exact ⟨c, hc, hds⟩

theorem Within.putDefault {k : PropertyKey} {v : Value} (h : s.Within w L K)
    (hv : w.DefaultsTo k v) :
    ({ s with defaults := Property.putFront k v s.defaults } : Store).Within w L K := by
  refine ⟨⟨h.coherent.world, h.coherent.classes, h.coherent.parsed, h.coherent.declared,
    fun j u hj => ?_⟩, h.folding, h.kept⟩
  rcases lookup_putFront_cases hj with ⟨rfl, rfl⟩ | hj
  · exact hv
  · exact h.coherent.defaults j u hj

end Store

open Store

/-! ## Locating and parsing -/

section

variable {w : World} {L : List ConstantKey} {K : List String}

/-- A step of locating that only adds warnings. -/
theorem locating_comes {α : Type} {step : Locating α} {o : Outcome α}
    (h : Comes w.Like step o w.Like) :
    Comes (Within w L K) (Query.locating step) o (Within w L K) := by
  intro s hs
  obtain ⟨ho, hlike⟩ := h s.world hs.coherent.world
  exact ⟨ho, ⟨hlike, hs.coherent.classes, hs.coherent.parsed, hs.coherent.declared,
    hs.coherent.defaults⟩, hs.folding, hs.kept⟩

theorem warn_comes (message : String) :
    Comes (Within w L K) (Query.warn message) (.ok ⟨⟩) (Within w L K) :=
  locating_comes (World.warn_comes [message])

theorem parse_comes (located : LocatedSource) :
    Comes (Within w L K) (parse located) (.ok (w.trees.parse located.text located.origin))
      (Within w L K) := by
  refine .get_bind fun s hs => ?_
  cases hp : s.parsed.lookup (located.origin, located.text) with
  | some p =>
    rw [hs.coherent.parsed _ _ hp]
    exact ⟨rfl, hs⟩
  | none =>
    refine Comes.run ?_ hs
    refine (locating_comes (World.parse_comes _ _)).bind_ok (.bind_ok (.modify ?_) .pure)
    exact fun t ht => ht.addParsed located.text located.origin

/-! ## Classes -/

/-- A class is kept under its key if it is the first one with it, unless one is already. -/
theorem keep_comes {c : ReflectedClass} (h : c.key ∈ K ∨ w.find? c.key = some c) :
    Comes (Within w L K) (keep c) (.ok (w.canonical c)) (Within w L (c.key :: K)) := by
  refine .get_bind fun s hs => ?_
  cases hc : s.classes.lookup c.key with
  | some known =>
    -- an earlier class with the key stays, and this one counts as kept
    rw [hs.coherent.canonical hc]
    refine ⟨rfl, hs.coherent, hs.folding, fun k hk => ?_⟩
    rcases List.mem_cons.mp hk with rfl | hk
    · exact Option.isSome_iff_exists.mpr ⟨known, hc⟩
    · exact hs.kept k hk
  | none =>
    have hfind : w.find? c.key = some c := by
      rcases h with hk | hfind
      · have := hs.kept _ hk
        rw [hc] at this
        cases this
      · exact hfind
    have hcanonical : w.canonical c = c := by
      unfold World.canonical
      rw [hfind]
      rfl
    rw [hcanonical]
    exact ⟨rfl, hs.addClass hfind hc⟩

theorem findIn_eq (p : ParsedSource) (key : String) :
    findIn p key = (World.classesIn p).find? fun c => c.key == key := by
  unfold findIn World.classesIn
  rw [List.find?_map]
  rfl

/-- The search of the locators at some positions finds the first class with a key, if the
locators before them have none with it. -/
theorem search_comes (hw : w.IsStatic) {key : String} (identifier : String) {positions : List Nat}
    (hi : ∀ i ∈ positions, i < w.locators.length)
    (h : w.find? key = (w.classesAt positions).find? fun c => c.key == key) :
    Comes (Within w L K) (search key identifier positions) (.ok (w.find? key)) (Within w L K) := by
  induction positions with
  | nil => rw [h]; exact .pure
  | cons i rest ih =>
    obtain ⟨supply, text, origin, hsource, hfetch, hsupply, _⟩ :=
      World.exists_supply hw (hi i (List.mem_cons_self ..))
    have hlocate := World.locateAt_comes (hsupply identifier) (hfetch (some identifier))
    refine (locating_comes hlocate).bind_ok ((parse_comes _).bind_ok ?_)
    rw [World.classesAt_cons hsource, List.find?_append] at h
    rw [← findIn_eq] at h
    simp only
    cases hf : findIn (w.trees.parse text origin) key with
    | none =>
      -- the source has no class with the key, so the first one is in the others
      rw [hf, Option.none_or] at h
      exact ih (fun j hj => hi j (List.mem_cons_of_mem _ hj)) h
    | some c =>
      rw [hf, Option.some_or] at h
      have hkey := World.find?_key h
      have hcanonical : w.canonical c = c := by
        unfold World.canonical
        rw [hkey]
        rfl
      rw [h]
      -- keeping it keeps no other class than the one that is found
      have hkeep := keep_comes (L := L) (K := K) (.inr hkey)
      rw [hcanonical] at hkeep
      refine Comes.mono (J := Within w L (c.key :: K)) ?_ (fun _ hs => hs) fun _ hs =>
        hs.mono fun k hk => List.mem_cons_of_mem _ hk
      show Comes _ (keep c >>= fun d => pure (some d)) _ _
      exact hkeep.bind_ok .pure

theorem reflect_comes (hw : w.IsStatic) (identifier : String) :
    Comes (Within w L K) (reflect identifier) (w.answer identifier) (Within w L K) := by
  unfold reflect World.answer
  simp only
  by_cases hempty : (Identifier.normalize identifier).isEmpty = true
  · rw [if_pos hempty, if_pos hempty]
    exact .bind_error .throw
  · rw [if_neg hempty, if_neg hempty]
    refine .get_bind fun s hs => ?_
    cases hc : s.classes.lookup (Identifier.normalize identifier) with
    | some known =>
      -- what is kept under the key is the first class with it
      rw [hs.coherent.classes _ _ hc]
      exact ⟨rfl, hs⟩
    | none =>
      have hall : w.find? (Identifier.normalize identifier)
          = (w.classesAt (List.range w.locators.length)).find?
            fun c => c.key == Identifier.normalize identifier := by
        rw [← World.classes_eq]
        rfl
      have hsearch := search_comes (L := L) (K := K) hw (Identifier.trimmed identifier)
        (fun i hi => List.mem_range.mp hi) hall
      refine Comes.run ?_ hs
      refine (locating_comes World.positions_comes).bind_ok (hsearch.bind_ok ?_)
      cases w.find? (Identifier.normalize identifier) with
      | none => exact .throw
      | some c => exact .pure

theorem hasClass_comes (hw : w.IsStatic) (identifier : String) :
    Comes (Within w L K) (hasClass identifier) (.ok (w.answer identifier).isOk)
      (Within w L K) := by
  have hreflect := reflect_comes (L := L) (K := K) hw identifier
  unfold hasClass
  cases hans : w.answer identifier with
  | ok c =>
    rw [hans] at hreflect
    refine Comes.tryCatch_ok ?_
    exact hreflect.bind_ok .pure
  | error f =>
    rw [hans] at hreflect
    refine Comes.tryCatch_error hreflect.bind_error ?_
    rw [if_pos (World.isNotFound_of_answer hans)]
    exact .pure

theorem parent_comes (hw : w.IsStatic) (c : ReflectedClass) :
    Comes (Within w L K) (parent c) (w.parent? c) (Within w L K) := by
  unfold parent World.parent?
  cases c.parentName? with
  | none => exact .pure
  | some name => exact (reflect_comes hw name).bind fun _ _ => .pure

/-! ## Listing -/

/-- Classes that come up in source order are kept if none before them had their key. -/
theorem keepEach_comes {before cs rest : List ReflectedClass} {K : List String}
    (h : w.classes = before ++ (cs ++ rest)) (hK : ∀ d ∈ before, d.key ∈ K) :
    Comes (Within w L K) (cs.mapM keep) (.ok (cs.map w.canonical))
      (Within w L (cs.map (·.key) ++ K)) := by
  induction cs generalizing before K with
  | nil => rw [List.mapM_nil]; exact .pure
  | cons c cs ih =>
    -- a class with the key came up before, or this is the first
    have hc : c.key ∈ K ∨ w.find? c.key = some c := by
      by_cases hseen : ∃ d ∈ before, d.key = c.key
      · obtain ⟨d, hd, hkey⟩ := hseen
        exact .inl (hkey ▸ hK d hd)
      · have hnone : before.find? (fun d => d.key == c.key) = none := by
          refine List.find?_eq_none.mpr fun d hd heq => hseen ⟨d, hd, ?_⟩
          exact eq_of_beq heq
        right
        unfold World.find?
        rw [h, List.find?_append, hnone, Option.none_or, List.cons_append]
        exact List.find?_cons_of_pos (beq_self_eq_true c.key)
    have hrest : w.classes = (before ++ [c]) ++ (cs ++ rest) := by
      rw [h, List.append_assoc]
      rfl
    have hmore := ih (K := c.key :: K) hrest fun d hd => by
      rcases List.mem_append.mp hd with hd | hd
      · exact List.mem_cons_of_mem _ (hK d hd)
      · rw [List.mem_singleton.mp hd]
        exact List.mem_cons_self ..
    rw [List.mapM_cons]
    refine (keep_comes hc).bind_ok (.bind_ok (hmore.mono (fun _ hs => hs) ?_) .pure)
    intro s hs
    refine hs.mono fun k hk => ?_
    rw [List.map_cons, List.cons_append, List.mem_cons, List.mem_append] at hk
    rw [List.mem_append, List.mem_cons]
    rcases hk with hk | hk | hk
    · exact .inr (.inl hk)
    · exact .inl hk
    · exact .inr (.inr hk)

theorem keepAll_eq (p : ParsedSource) : keepAll p = (World.classesIn p).mapM keep := by
  unfold keepAll World.classesIn
  rw [List.mapM_map]
  rfl

/-- The class-likes of the sources at some positions, when those of the sources before
are kept. -/
theorem listLocators_comes (hw : w.IsStatic) {positions : List Nat}
    (hi : ∀ i ∈ positions, i < w.locators.length) {before : List ReflectedClass}
    {K : List String}
    (h : w.classes = before ++ w.classesAt positions)
    (hK : ∀ d ∈ before, d.key ∈ K) :
    Comes (Within w L K) (listLocators positions)
      (.ok ((w.classesAt positions).map w.canonical))
      (Within w L ((w.classesAt positions).map (·.key) ++ K)) := by
  induction positions generalizing before K with
  | nil => exact .pure
  | cons i rest ih =>
    obtain ⟨supply, text, origin, hsource, hfetch, _, hlists⟩ :=
      World.exists_supply hw (hi i (List.mem_cons_self ..))
    rw [World.classesAt_cons hsource] at h ⊢
    have hhere := World.fetch_comes (w := w) none supply
    rw [hfetch none] at hhere
    have hkeep := keepEach_comes (L := L) (K := K) h hK
    rw [← keepAll_eq] at hkeep
    have hone : Comes (Within w L K) (listSupplies [supply])
        (.ok ((World.classesIn (w.trees.parse text origin)).map w.canonical))
        (Within w L ((World.classesIn (w.trees.parse text origin)).map (·.key) ++ K)) := by
      unfold listSupplies
      refine (locating_comes hhere).bind_ok ((parse_comes _).bind_ok (hkeep.bind_ok ?_))
      have hend : Comes (Within w L ((World.classesIn (w.trees.parse text origin)).map (·.key) ++ K))
          (listSupplies []) (.ok []) _ := .pure
      have := hend.bind_ok (g := fun more => pure
        ((World.classesIn (w.trees.parse text origin)).map w.canonical ++ more)) .pure
      rw [List.append_nil] at this
      exact this
    have hrest : w.classes = (before ++ World.classesIn (w.trees.parse text origin))
        ++ w.classesAt rest := by
      rw [h, List.append_assoc]
    have hmore := ih (fun j hj => hi j (List.mem_cons_of_mem _ hj))
      (K := (World.classesIn (w.trees.parse text origin)).map (·.key) ++ K) hrest fun d hd => by
        rcases List.mem_append.mp hd with hd | hd
        · exact List.mem_append_right _ (hK d hd)
        · exact List.mem_append_left _ (List.mem_map_of_mem hd)
    rw [List.map_append, List.map_append, List.append_assoc]
    refine (locating_comes hlists).bind_ok (hone.bind_ok (.bind_ok (hmore.mono (fun _ hs => hs) ?_)
      .pure))
    intro s hs
    refine hs.mono fun k hk => ?_
    rw [List.mem_append, List.mem_append] at hk ⊢
    rcases hk with hk | hk | hk
    · exact .inr (.inl hk)
    · exact .inl hk
    · exact .inr (.inr hk)

/-- Listing all classes comes to those that are kept under their keys, and keeps them. -/
theorem allClasses_comes (hw : w.IsStatic) :
    Comes (Within w L K) allClasses (.ok w.listed) (Within w L (w.keys ++ K)) := by
  have hall : w.classes = [] ++ w.classesAt (List.range w.locators.length) := World.classes_eq
  have hnone : ∀ d ∈ ([] : List ReflectedClass), d.key ∈ K := fun _ h => by cases h
  have hlist := listLocators_comes (L := L) hw (fun i hi => List.mem_range.mp hi) hall hnone
  rw [← World.classes_eq] at hlist
  exact (locating_comes World.positions_comes).bind_ok hlist

end

end StaticReflection
