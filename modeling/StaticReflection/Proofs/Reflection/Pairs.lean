import StaticReflection.Proofs.Folding.Agreement
import StaticReflection.Reflection.Constants

/-!
# Queries in two stores

No query but the one for a visibility looks at the visibilities that were changed. So in two
stores that differ in nothing else (`Store.SameBut`) a query comes to the same, and changes
both in the same way: the world may change, parsed sources, classes and gathered properties
are added at the end, a default is put in place, and constants being folded come and go.
`Store.LastingPair R` says that a relation between such stores outlives each of these changes.

> `Query.Respects`: a query comes to the same outcome in two stores with a lasting relation,
> which holds after it, and it has put back the constants that were being folded.

There is one lemma for each query, and none of them looks at what the relation is. A
relation that lets a store be related to itself only is a property of stores.
-/

namespace StaticReflection

open Folding Outcome Reflector

/-! ## Depth and folds in progress -/

theorem Store.depth_pos (s : Store) : 0 < s.depth :=
  Nat.mul_pos (Nat.succ_pos _) (Nat.succ_pos _)

/-- The depth that a query begins with is that of the store. -/
theorem depth_bind {α : Type} (q : Nat → Query α) (s : Store) :
    outcome (Query.depth >>= q) s = outcome (q s.depth) s
      ∧ after (Query.depth >>= q) s = after (q s.depth) s := by
  have hdepth : outcome Query.depth s = .ok s.depth := rfl
  rw [outcome_bind_ok hdepth, after_bind_ok hdepth]
  exact ⟨rfl, rfl⟩

section

variable {α : Type} {k : ConstantKey} {again : Failure} {q : Query α} {s : Store}

/-- A constant that is being folded is not entered again. -/
theorem whileFolding_busy (h : s.folding.contains k = true) :
    outcome (Query.whileFolding k again q) s = .error again
      ∧ after (Query.whileFolding k again q) s = s := by
  unfold Query.whileFolding
  rw [outcome_bind_ok (outcome_get s), after_bind_ok (outcome_get s)]
  simp only
  rw [if_pos h]
  exact ⟨rfl, rfl⟩

/-- A constant that is not being folded is entered, and left whatever the outcome. -/
theorem whileFolding_free (h : ¬s.folding.contains k = true) :
    outcome (Query.whileFolding k again q) s = outcome q (s.enter k)
      ∧ after (Query.whileFolding k again q) s = (after q (s.enter k)).leave k := by
  unfold Query.whileFolding
  rw [outcome_bind_ok (outcome_get s), after_bind_ok (outcome_get s)]
  simp only
  rw [if_neg h]
  exact ⟨outcome_finally q _ (s.enter k), after_finally q _ (s.enter k)⟩

end

/-! ## Lasting relations -/

/-- Two stores that differ in nothing but the visibilities that were changed. -/
def Store.SameBut (s t : Store) : Prop := t = { s with visibilities := t.visibilities }

/-- A relation between stores that outlives every change that finding classes makes. -/
structure Store.SteadyPair (R : Store → Store → Prop) : Prop where
  same : ∀ s t, R s t → s.SameBut t
  world : ∀ s t w, R s t → R { s with world := w } { t with world := w }
  parsed : ∀ s t k p, R s t →
    R { s with parsed := s.parsed ++ [(k, p)] } { t with parsed := t.parsed ++ [(k, p)] }
  /-- A class is added under its key if there is none. -/
  classes : ∀ s t c, s.classes.lookup c.key = none → R s t →
    R { s with classes := s.classes ++ [(c.key, c)] }
      { t with classes := t.classes ++ [(c.key, c)] }

/-- A relation between stores that outlives every change that a query makes. -/
structure Store.LastingPair (R : Store → Store → Prop) : Prop extends Store.SteadyPair R where
  /-- The properties of a class are added under its key, one of each name. -/
  declared : ∀ s t k ds, s.declared.lookup k = none → (ds.map (·.name)).Nodup → R s t →
    R { s with declared := s.declared ++ [(k, ds)] } { t with declared := t.declared ++ [(k, ds)] }
  defaults : ∀ s t k v, R s t →
    R { s with defaults := Property.putFront k v s.defaults }
      { t with defaults := Property.putFront k v t.defaults }
  folding : ∀ s t L, R s t → R { s with folding := L } { t with folding := L }

theorem Store.SteadyPair.and {R R' : Store → Store → Prop} (h : Store.SteadyPair R)
    (h' : Store.SteadyPair R') : Store.SteadyPair fun s t => R s t ∧ R' s t :=
  ⟨fun s t hs => h.same s t hs.1,
    fun s t w hs => ⟨h.world s t w hs.1, h'.world s t w hs.2⟩,
    fun s t k p hs => ⟨h.parsed s t k p hs.1, h'.parsed s t k p hs.2⟩,
    fun s t c hc hs => ⟨h.classes s t c hc hs.1, h'.classes s t c hc hs.2⟩⟩

/-- Finding classes adds no properties. -/
theorem Store.steadyPair_unlisted (k : String) :
    Store.SteadyPair fun s t => s.SameBut t ∧ s.declared.lookup k = none := by
  refine ⟨fun _ _ h => h.1, ?_, ?_, ?_⟩
  · rintro s t w ⟨hsame, hnew⟩
    rw [hsame]
    exact ⟨rfl, hnew⟩
  · rintro s t k p ⟨hsame, hnew⟩
    rw [hsame]
    exact ⟨rfl, hnew⟩
  · rintro s t c _ ⟨hsame, hnew⟩
    rw [hsame]
    exact ⟨rfl, hnew⟩

/-- A query that comes to the same in two related stores, which are related after it, and
puts back the constants being folded. -/
def Query.Respects {α : Type} (R : Store → Store → Prop) (q : Query α) : Prop :=
  ∀ L, Agree (fun s t => R s t ∧ s.folding = L) (fun _ => True) q q

section

variable {R : Store → Store → Prop} {α β : Type}

theorem Query.Respects.bind {q : Query α} {g : α → Query β} (h : q.Respects R)
    (hg : ∀ a, (g a).Respects R) : (q >>= g).Respects R :=
  fun L => (h L).bind (fun a _ => hg a L) fun _ _ => trivial

theorem Query.Respects.pure {a : α} : (pure a : Query α).Respects R := fun _ => .pure trivial

theorem Query.Respects.throw {f : Failure} : (throw f : Query α).Respects R :=
  fun _ => .throw trivial

theorem Query.Respects.throw_bind {f : Failure} {g : α → Query β} :
    Query.Respects R ((MonadExcept.throw f : Query α) >>= g) := fun _ => .throw_bind trivial

/-- A query that begins by looking at the store, but not at visibilities. -/
theorem Query.Respects.get_bind (hsame : ∀ s t, R s t → s.SameBut t) {k : Store → Query α}
    (hk : ∀ s vs, k { s with visibilities := vs } = k s) (h : ∀ s, (k s).Respects R) :
    (get >>= k).Respects R := by
  intro L
  apply Agree.get_bind
  intro s t hs
  have hk' : k t = k s := by rw [hsame s t hs.1]; exact hk s t.visibilities
  rw [hk']
  exact h s L s t hs

theorem Query.Respects.modify {f : Store → Store} (h : ∀ s t, R s t → R (f s) (f t))
    (hfolding : ∀ s, (f s).folding = s.folding) : (modify f : Query PUnit).Respects R :=
  fun _ s t hs => ⟨rfl, trivial, h s t hs.1, (hfolding s).trans hs.2⟩

theorem Query.Respects.tryCatch {q : Query α} {r : Failure → Query α} (h : q.Respects R)
    (hr : ∀ f, (r f).Respects R) : (tryCatch q r).Respects R :=
  fun L => (h L).tryCatch (fun _ _ => trivial) fun f _ => hr f L

theorem Query.Respects.foldlM {γ : Type} {step : α → γ → Query α} {xs : List γ}
    (h : ∀ a, ∀ x ∈ xs, (step a x).Respects R) (a : α) : (xs.foldlM step a).Respects R := by
  induction xs generalizing a with
  | nil => exact .pure
  | cons x xs ih =>
    rw [List.foldlM_cons]
    refine (h a x (List.mem_cons_self ..)).bind fun b => ?_
    exact ih (fun c y hy => h c y (List.mem_cons_of_mem _ hy)) b

theorem Query.Respects.mapM {γ : Type} {step : γ → Query α} (h : ∀ x, (step x).Respects R)
    (xs : List γ) : (xs.mapM step).Respects R := by
  induction xs with
  | nil => rw [List.mapM_nil]; exact .pure
  | cons x xs ih =>
    rw [List.mapM_cons]
    exact (h x).bind fun _ => ih.bind fun _ => .pure

/-- Two relations that a query respects it respects together. -/
theorem Query.Respects.and {R' : Store → Store → Prop} {q : Query α} (h : q.Respects R)
    (h' : q.Respects R') : q.Respects fun s t => R s t ∧ R' s t := by
  intro L s t ⟨⟨hs, hs'⟩, hL⟩
  obtain ⟨he, _, hafter, hfolding⟩ := h L s t ⟨hs, hL⟩
  obtain ⟨_, _, hafter', _⟩ := h' L s t ⟨hs', hL⟩
  exact ⟨he, trivial, ⟨hafter, hafter'⟩, hfolding⟩

/-- A fold respects what its resolver respects. -/
theorem fold_respects {r : String → String → Query Value}
    (hr : ∀ scope name, (r scope name).Respects R) (F : Folder Store) (n : Node) :
    Query.Respects R ({ F with classConstant := some r }.fold n) := by
  intro L
  have hagree := Folder.fold_agree (p := fun _ => true) (fun _ _ => rfl)
    (fun scope name => (hr scope name L).mono fun _ _ _ _ => rfl) F n
  exact hagree.mono fun _ _ => trivial

end

/-! ## Finding classes -/

section

variable {R : Store → Store → Prop} (hR : Store.SteadyPair R)
include hR

theorem locating_respects {α : Type} (step : Locating α) : (Query.locating step).Respects R := by
  intro L s t hs
  have hworld : t.world = s.world := by rw [hR.same s t hs.1]
  have hwas := hR.world s t (step.run s.world).2 hs.1
  refine ⟨?_, trivial, ?_, hs.2⟩
  · show (step.run s.world).1 = (step.run t.world).1
    rw [hworld]
  · show R { s with world := (step.run s.world).2 } { t with world := (step.run t.world).2 }
    rw [hworld]
    exact hwas

theorem parse_respects (located : LocatedSource) : (parse located).Respects R := by
  refine .get_bind hR.same (fun _ _ => rfl) fun s => ?_
  split
  · exact .pure
  · refine (locating_respects hR _).bind fun p => ?_
    exact .bind (.modify (fun s t hs => hR.parsed s t _ _ hs) fun _ => rfl) fun _ => .pure

theorem keep_respects (c : ReflectedClass) : (keep c).Respects R := by
  intro L
  apply Agree.get_bind
  intro s t hs
  have hclasses : t.classes = s.classes := by rw [hR.same s t hs.1]
  rw [hclasses]
  cases hc : s.classes.lookup c.key with
  | some known => exact ⟨rfl, trivial, hs⟩
  | none => exact ⟨rfl, trivial, hR.classes s t c hc hs.1, hs.2⟩

theorem search_respects (key identifier : String) (positions : List Nat) :
    (search key identifier positions).Respects R := by
  induction positions with
  | nil => exact .pure
  | cons i rest ih =>
    refine (locating_respects hR _).bind fun located => ?_
    cases located with
    | none => exact ih
    | some located =>
      refine (parse_respects hR located).bind fun p => ?_
      split
      next c _ => exact (keep_respects hR c).bind fun _ => .pure
      next => exact ih

theorem reflect_respects (identifier : String) : (reflect identifier).Respects R := by
  unfold reflect
  simp only
  split
  · exact .throw_bind
  · refine .get_bind hR.same (fun _ _ => rfl) fun s => ?_
    split
    · exact .pure
    · refine (locating_respects hR _).bind fun positions => ?_
      refine (search_respects hR _ _ positions).bind fun found => ?_
      cases found with
      | none => exact .throw
      | some c => exact .pure

theorem hasClass_respects (identifier : String) : (hasClass identifier).Respects R := by
  refine .tryCatch ((reflect_respects hR identifier).bind fun _ => .pure) fun f => ?_
  split
  · exact .pure
  · exact .throw

theorem parent_respects (c : ReflectedClass) : (parent c).Respects R := by
  unfold parent
  split
  · exact .pure
  · exact (reflect_respects hR _).bind fun _ => .pure

theorem keepAll_respects (p : ParsedSource) : (keepAll p).Respects R :=
  .mapM (fun c => keep_respects hR ⟨c, p⟩) _

theorem listSupplies_respects (supplies : List Supply) : (listSupplies supplies).Respects R := by
  induction supplies with
  | nil => exact .pure
  | cons s rest ih =>
    refine (locating_respects hR _).bind fun located => ?_
    refine (parse_respects hR located).bind fun p => ?_
    exact (keepAll_respects hR p).bind fun _ => ih.bind fun _ => .pure

theorem listLocators_respects (positions : List Nat) : (listLocators positions).Respects R := by
  induction positions with
  | nil => exact .pure
  | cons i rest ih =>
    refine (locating_respects hR _).bind fun supplies => ?_
    exact (listSupplies_respects hR supplies).bind fun _ => ih.bind fun _ => .pure

theorem allClasses_respects : allClasses.Respects R :=
  (locating_respects hR _).bind fun positions => listLocators_respects hR positions

/-! ## Properties -/

theorem addOwn_respects (c : ReflectedClass) (ds : List PropertyDeclaration)
    (d : PropertyDeclaration) : (addOwn c ds d).Respects R := by
  unfold addOwn
  split
  · exact (locating_respects hR _).bind fun _ => .pure
  · exact .pure

theorem ownProperties_respects (c : ReflectedClass) : (ownProperties c).Respects R := by
  refine .foldlM (fun acc n _ => ?_) []
  refine Query.Respects.bind (fun _ => .lift trivial) fun ds => ?_
  exact .foldlM (fun acc d _ => addOwn_respects hR c acc d) acc

theorem gather_respects {visit : ReflectedClass → Query (List PropertyDeclaration)}
    (h : ∀ d, (visit d).Respects R) (c : ReflectedClass) : (gather visit c).Respects R := by
  refine (ownProperties_respects hR c).bind fun own => ?_
  refine .foldlM (fun acc name _ => ?_) own
  exact (reflect_respects hR name).bind fun used => (h used).bind fun _ => .pure

end

/-! ## One property of each name -/

section

variable {α : Type} {nameOf : α → String} {xs : List α}

theorem append_names_nodup {x : α} (h : (xs.map nameOf).Nodup)
    (hx : xs.any (fun y => nameOf y == nameOf x) = false) : ((xs ++ [x]).map nameOf).Nodup := by
  rw [List.map_append, List.map_singleton, List.nodup_append]
  refine ⟨h, List.pairwise_singleton _ _, fun a ha b hb he => ?_⟩
  rw [List.mem_singleton.mp hb] at he
  obtain ⟨y, hy, hname⟩ := List.mem_map.mp ha
  exact List.any_eq_false.mp hx y hy (beq_iff_eq.mpr (hname.trans he))

/-- Adding what has a new name, one after the other, keeps one of each name. -/
theorem addNew_names_nodup (h : (xs.map nameOf).Nodup) (more : List α) :
    ((more.foldl (fun acc x => if acc.any (fun y => nameOf y == nameOf x) then acc else acc ++ [x])
      xs).map nameOf).Nodup := by
  induction more generalizing xs with
  | nil => exact h
  | cons x more ih =>
    rw [List.foldl_cons]
    refine ih ?_
    split
    · exact h
    next hnew => exact append_names_nodup h (Bool.eq_false_iff.mpr hnew)

end

theorem addOwn_gives_nodup (c : ReflectedClass) {ds : List PropertyDeclaration}
    (d : PropertyDeclaration) (h : (ds.map (·.name)).Nodup) :
    Gives (fun ds => (ds.map (·.name)).Nodup) (addOwn c ds d) := by
  unfold addOwn
  split
  · exact .of_bind fun _ => .pure h
  next hnew => exact .pure (append_names_nodup h (Bool.eq_false_iff.mpr hnew))

/-- Gathering the properties of a class comes to one of each name. -/
theorem gather_gives_nodup (visit : ReflectedClass → Query (List PropertyDeclaration))
    (c : ReflectedClass) : Gives (fun ds => (ds.map (·.name)).Nodup) (gather visit c) := by
  have hown : Gives (fun ds => (ds.map (·.name)).Nodup) (ownProperties c) :=
    .foldlM (fun acc n h => .of_bind fun ds =>
      .foldlM (fun acc d h => addOwn_gives_nodup c d h) h) List.nodup_nil
  refine hown.bind fun own h => .foldlM (fun acc name h => ?_) h
  exact .of_bind fun used => .of_bind fun ds => .pure (addNew_names_nodup h ds)

/-- While a class is being gathered its properties are not added by another query. -/
theorem declaredWithin_respects_unlisted {k : String} {fuel : Nat} {active : List String}
    (hk : k ∈ active) (c : ReflectedClass) :
    (declaredWithin fuel active c).Respects fun s t =>
      s.SameBut t ∧ s.declared.lookup k = none := by
  induction fuel generalizing active c with
  | zero => exact .throw
  | succ fuel ih =>
    refine .get_bind (fun _ _ h => h.1) (fun _ _ => rfl) fun s => ?_
    split
    · exact .pure
    · simp only
      split
      · exact .throw_bind
      next hnew =>
        have hne : k ≠ c.key := fun he => hnew (List.contains_iff_mem.mpr (he ▸ hk))
        have hgather := gather_respects (Store.steadyPair_unlisted k)
          (fun d => ih (List.mem_cons_of_mem c.key hk) d) c
        refine hgather.bind fun ds => .bind (.modify ?_ fun _ => rfl) fun _ => .pure
        rintro s t ⟨hsame, ht⟩
        rw [hsame]
        refine ⟨rfl, ?_⟩
        show (s.declared ++ [(c.key, ds)]).lookup k = none
        rw [List.lookup_append, ht, Option.none_or, List.lookup_cons, beq_false_of_ne hne]
        rfl

section

variable {R : Store → Store → Prop} (hR : Store.LastingPair R)
include hR

theorem declaredWithin_respects (fuel : Nat) (active : List String) (c : ReflectedClass) :
    (declaredWithin fuel active c).Respects R := by
  induction fuel generalizing active c with
  | zero => exact .throw
  | succ fuel ih =>
    intro L
    apply Agree.get_bind
    intro s t hs
    have hsame := hR.same s t hs.1
    have hdeclared : t.declared = s.declared := by rw [hsame]
    rw [hdeclared]
    cases hkept : s.declared.lookup c.key with
    | some ds => exact ⟨rfl, trivial, hs⟩
    | none =>
      simp only
      by_cases hactive : active.contains c.key = true
      · rw [if_pos hactive]
        exact ⟨rfl, trivial, hs⟩
      · rw [if_neg hactive]
        -- the class is not added on the way, so it is still new when it is added
        have hgather := gather_respects (hR.toSteadyPair.and (Store.steadyPair_unlisted c.key))
          (fun d => (ih (c.key :: active) d).and
            (declaredWithin_respects_unlisted (List.mem_cons_self ..) d)) c
        obtain ⟨he, _, hafter, hfolding⟩ := hgather L s t ⟨⟨hs.1, hsame, hkept⟩, hs.2⟩
        unfold AgreeAt
        rw [outcome_bind, after_bind, outcome_bind, after_bind, ← he]
        cases hds : outcome (gather (declaredWithin fuel (c.key :: active)) c) s with
        | error f => exact ⟨rfl, trivial, hafter.1, hfolding⟩
        | ok ds =>
          have hnodup := gather_gives_nodup _ c s ds hds
          exact ⟨rfl, trivial, hR.declared _ _ c.key ds hafter.2.2 hnodup hafter.1, hfolding⟩

theorem declared_respects (c : ReflectedClass) : (declared c).Respects R :=
  .get_bind hR.same (fun _ _ => rfl) fun s => declaredWithin_respects hR s.depth [] c

theorem immediateProperties_respects (c : ReflectedClass) :
    (immediateProperties c).Respects R := (declared_respects hR c).bind fun _ => .pure

theorem climb_respects {α : Type} {origin : String}
    {visit : α → ReflectedClass → Query (Bool × α)} (hvisit : ∀ a c, (visit a c).Respects R)
    (fuel : Nat) (seen : List String) (a : α) (c : ReflectedClass) :
    (climb origin visit fuel seen a c).Respects R := by
  induction fuel generalizing seen a c with
  | zero => exact .throw
  | succ fuel ih =>
    unfold climb
    simp only
    split
    · exact .throw_bind
    · refine (hvisit a c).bind fun r => ?_
      split
      · exact .pure
      · refine (parent_respects hR.toSteadyPair c).bind fun next => ?_
        cases next with
        | none => exact .pure
        | some d => exact ih _ _ d

theorem climbFrom_respects {α : Type} {visit : α → ReflectedClass → Query (Bool × α)}
    (hvisit : ∀ a c, (visit a c).Respects R) (c : ReflectedClass) (a : α) :
    (climbFrom c a visit).Respects R :=
  .get_bind hR.same (fun _ _ => rfl) fun s => climb_respects hR hvisit s.depth [] a c

theorem parentNames_respects (c : ReflectedClass) : (parentNames c).Respects R :=
  (climbFrom_respects hR (fun _ _ => .pure) c []).bind fun _ => .pure

theorem properties_respects (c : ReflectedClass) : (properties c).Respects R :=
  climbFrom_respects hR (fun _ d => (immediateProperties_respects hR d).bind fun _ => .pure) c []

theorem property_respects (c : ReflectedClass) (written : String) :
    (property c written).Respects R := by
  refine (climbFrom_respects hR (fun _ d => ?_) c none).bind fun found => ?_
  · exact (immediateProperties_respects hR d).bind fun _ => .pure
  · cases found with
    | none => exact .throw
    | some p => exact .pure

theorem hasProperty_respects (c : ReflectedClass) (name : String) :
    (hasProperty c name).Respects R := by
  refine .tryCatch ((property_respects hR c name).bind fun _ => .pure) fun f => ?_
  split
  · exact .pure
  · exact .throw

theorem detachedProperty_respects (c : ReflectedClass) (written : String) :
    (detachedProperty c written).Respects R := by
  refine (climbFrom_respects hR (fun a d => ?_) c (none, true)).bind fun found => ?_
  · have hdepth : Query.depth.Respects R := .get_bind hR.same (fun _ _ => rfl) fun _ => .pure
    obtain ⟨_, isFirst⟩ := a
    cases isFirst with
    | true =>
      -- what is gathered for a second reflection of the class is not kept
      refine hdepth.bind fun n => ?_
      exact (gather_respects hR.toSteadyPair (declaredWithin_respects hR n []) d).bind
        fun _ => .bind .pure fun _ => .pure
    | false => exact (immediateProperties_respects hR d).bind fun _ => .pure
  · split
    · exact .pure
    · exact .throw

/-! ## Constants and default values -/

/-- A fold that is left is no longer in progress, and those before it are. -/
theorem whileFolding_respects {α : Type} {k : ConstantKey} {again : Failure} {q : Query α}
    (hq : q.Respects R) : (Query.whileFolding k again q).Respects R := by
  rintro L s t ⟨hs, rfl⟩
  have hfolding : t.folding = s.folding := by rw [hR.same s t hs]
  unfold AgreeAt
  by_cases hk : s.folding.contains k = true
  · have hk' : t.folding.contains k = true := by rw [hfolding]; exact hk
    rw [(whileFolding_busy hk).1, (whileFolding_busy hk').1, (whileFolding_busy hk).2,
      (whileFolding_busy hk').2]
    exact ⟨rfl, trivial, hs, rfl⟩
  · have hk' : ¬t.folding.contains k = true := by rw [hfolding]; exact hk
    rw [(whileFolding_free hk).1, (whileFolding_free hk').1, (whileFolding_free hk).2,
      (whileFolding_free hk').2]
    -- inside, the constant is the first one, and leaving takes the first one out
    have hentered : R (s.enter k) (t.enter k) := by
      unfold Store.enter
      rw [hfolding]
      exact hR.folding s t _ hs
    obtain ⟨he, _, hin, hinside⟩ := hq (k :: s.folding) (s.enter k) (t.enter k) ⟨hentered, rfl⟩
    have hinside' : (after q (t.enter k)).folding = (after q (s.enter k)).folding := by
      rw [hR.same _ _ hin]
    refine ⟨he, trivial, ?_, ?_⟩
    · unfold Store.leave
      rw [hinside']
      exact hR.folding _ _ _ hin
    · show (after q (s.enter k)).folding.erase k = s.folding
      rw [hinside, List.erase_cons_head]

theorem firstRelative_respects {valueIn : ReflectedClass → Query Value} {failure : Failure}
    (h : ∀ d, (valueIn d).Respects R) (names : List String) :
    (firstRelative valueIn failure names).Respects R := by
  induction names with
  | nil => exact .throw
  | cons name rest ih =>
    refine .tryCatch ((reflect_respects hR.toSteadyPair name).bind fun d => h d) fun f => ?_
    split
    · exact ih
    · exact .throw

theorem resolveConstantWith_respects {valueIn : ReflectedClass → String → Query Value}
    (h : ∀ d name, (valueIn d name).Respects R) (c : ReflectedClass) (scope constant : String) :
    (resolveConstantWith valueIn c scope constant).Respects R := by
  have finish (d : ReflectedClass) : Query.Respects R
      (if asksForName constant then pure (Value.ofString d.name) else valueIn d constant) := by
    split
    · exact .pure
    · exact h d constant
  unfold resolveConstantWith
  simp only
  split
  · exact finish c
  · split
    · refine (parent_respects hR.toSteadyPair c).bind fun next => ?_
      cases next with
      | none => exact .throw
      | some d => exact finish d
    · split
      · exact .pure
      · refine .bind (.tryCatch (reflect_respects hR.toSteadyPair _) fun f => ?_)
          fun d => h d constant
        split <;> exact .throw

theorem constantWithin_respects (fuel : Nat) (searched : List String) (c : ReflectedClass)
    (name : String) : (constantWithin fuel searched c name).Respects R := by
  induction fuel generalizing searched c name with
  | zero => exact .throw
  | succ fuel ih =>
    unfold constantWithin
    split
    next d _ =>
      refine whileFolding_respects hR (fold_respects (fun scope constant => ?_)
        (folder c c.source (resolveConstantWith (constantWithin fuel []) c) []) d.value)
      exact resolveConstantWith_respects hR (fun d name => ih [] d name) c scope constant
    next =>
      split
      · exact .throw
      · exact firstRelative_respects hR (fun d => ih _ d name) _

theorem constantValue_respects (c : ReflectedClass) (name : String) :
    (constantValue c name).Respects R :=
  .get_bind hR.same (fun _ _ => rfl) fun s => constantWithin_respects hR s.depth [] c name

theorem resolveConstant_respects (c : ReflectedClass) (scope constant : String) :
    (resolveConstant c scope constant).Respects R :=
  resolveConstantWith_respects hR (constantValue_respects hR) c scope constant

theorem declaringClass_respects (p : Property) : p.declaringClass.Respects R := by
  refine .get_bind hR.same (fun _ _ => rfl) fun s => ?_
  split
  · exact .pure
  · exact reflect_respects hR.toSteadyPair _

theorem defaultValue_respects (p : Property) : (defaultValue p).Respects R := by
  unfold defaultValue
  split
  · exact .pure
  next e _ =>
    refine .get_bind hR.same (fun _ _ => rfl) fun s => ?_
    split
    · exact .pure
    · refine (declaringClass_respects hR p).bind fun c => ?_
      refine .bind (fold_respects (resolveConstant_respects hR c)
        (folder c e.source (resolveConstant c) (defaultMagic c e)) e.node) fun v => ?_
      split
      · exact .bind (.modify (fun s t hs => hR.defaults s t _ v hs) fun _ => rfl) fun _ => .pure
      · exact .pure

end

end StaticReflection
