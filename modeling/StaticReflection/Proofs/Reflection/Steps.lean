import StaticReflection.Proofs.Reflection.Pairs

/-!
# What queries do to a store

Whatever the locators answer, a query changes a store in few ways: the world may change,
parsed sources, classes and gathered properties are added at the end, a default is put in
place, and constants being folded come and go. `Store.Lasting P` says that a property of
stores outlives each of these changes.

> `Query.Maintains`: a lasting property holds after every query if it held before, and the
> query has put back the constants that were being folded.

A property of stores is a relation of each store that has it to itself, so each query
maintains what it respects.
-/

namespace StaticReflection

open Folding Reflector

/-! ## Lasting properties -/

/-- A property of stores that outlives every change that finding classes makes. -/
structure Store.Steady (P : Store → Prop) : Prop where
  world : ∀ s w, P s → P { s with world := w }
  parsed : ∀ s k p, P s → P { s with parsed := s.parsed ++ [(k, p)] }
  /-- A class is added under its key if there is none. -/
  classes : ∀ s c, s.classes.lookup c.key = none → P s →
    P { s with classes := s.classes ++ [(c.key, c)] }

/-- A property of stores that outlives every change that a query makes. -/
structure Store.Lasting (P : Store → Prop) : Prop extends Store.Steady P where
  /-- The properties of a class are added under its key, one of each name. -/
  declared : ∀ s k ds, s.declared.lookup k = none → (ds.map (·.name)).Nodup → P s →
    P { s with declared := s.declared ++ [(k, ds)] }
  visibilities : ∀ s k v, P s → P { s with visibilities := Property.putFront k v s.visibilities }
  defaults : ∀ s k v, P s → P { s with defaults := Property.putFront k v s.defaults }
  folding : ∀ s L, P s → P { s with folding := L }

/-- Finding classes adds no properties. -/
theorem Store.steady_unlisted (k : String) :
    Store.Steady fun s => s.declared.lookup k = none :=
  ⟨fun _ _ h => h, fun _ _ _ h => h, fun _ _ _ h => h⟩

/-- A store that has a property, and itself. -/
def Store.Diagonal (P : Store → Prop) (s t : Store) : Prop := t = s ∧ P s

theorem Store.Steady.pair {P : Store → Prop} (h : Store.Steady P) :
    Store.SteadyPair (Store.Diagonal P) := by
  refine ⟨?_, ?_, ?_, ?_⟩
  · rintro s _ ⟨rfl, _⟩
    rfl
  · rintro s _ w ⟨rfl, hs⟩
    exact ⟨rfl, h.world _ w hs⟩
  · rintro s _ k p ⟨rfl, hs⟩
    exact ⟨rfl, h.parsed _ k p hs⟩
  · rintro s _ c hnew ⟨rfl, hs⟩
    exact ⟨rfl, h.classes _ c hnew hs⟩

theorem Store.Lasting.pair {P : Store → Prop} (h : Store.Lasting P) :
    Store.LastingPair (Store.Diagonal P) := by
  refine ⟨h.toSteady.pair, ?_, ?_, ?_⟩
  · rintro s _ k ds hnew hnodup ⟨rfl, hs⟩
    exact ⟨rfl, h.declared _ k ds hnew hnodup hs⟩
  · rintro s _ k v ⟨rfl, hs⟩
    exact ⟨rfl, h.defaults _ k v hs⟩
  · rintro s _ L ⟨rfl, hs⟩
    exact ⟨rfl, h.folding _ L hs⟩

/-- A query after which a property of the store holds if it held before, and the constants
being folded are what they were. -/
def Query.Maintains {α : Type} (P : Store → Prop) (q : Query α) : Prop :=
  ∀ L, Preserves (fun s : Store => P s ∧ s.folding = L) q

section

variable {P : Store → Prop} {α : Type} {q : Query α}

/-- What a store is to itself because of a property is maintained with the property. -/
theorem Query.Respects.maintains {R : Store → Store → Prop} (h : q.Respects R)
    (hto : ∀ s, P s → R s s) (hof : ∀ s, R s s → P s) : q.Maintains P := by
  rintro L s ⟨hs, hL⟩
  obtain ⟨_, _, hafter, hfolding⟩ := h L s s ⟨hto s hs, hL⟩
  exact ⟨hof _ hafter, hfolding⟩

theorem Query.Respects.of_diagonal (h : q.Respects (Store.Diagonal P)) : q.Maintains P :=
  h.maintains (fun _ hs => ⟨rfl, hs⟩) fun _ hs => hs.2

theorem Query.Maintains.diagonal (h : q.Maintains P) : q.Respects (Store.Diagonal P) := by
  rintro L _ s ⟨⟨rfl, hs⟩, hL⟩
  obtain ⟨hafter, hfolding⟩ := h L s ⟨hs, hL⟩
  exact ⟨rfl, trivial, ⟨rfl, hafter⟩, hfolding⟩

theorem Query.Maintains.bind {β : Type} {g : α → Query β} (h : q.Maintains P)
    (hg : ∀ a, (g a).Maintains P) : (q >>= g).Maintains P := fun L => (h L).bind fun a => hg a L

theorem Query.Maintains.pure {a : α} : (pure a : Query α).Maintains P := fun _ => .pure

theorem Query.Maintains.throw {f : Failure} : (throw f : Query α).Maintains P := fun _ => .throw

theorem Query.Maintains.modify {t : Store → Store} (h : ∀ s, P s → P (t s))
    (hfolding : ∀ s, (t s).folding = s.folding) : (modify t : Query PUnit).Maintains P :=
  fun _ => .modify fun s hs => ⟨h s hs.1, (hfolding s).trans hs.2⟩

end

/-! ## Finding classes -/

section

variable {P : Store → Prop} (hP : Store.Steady P)
include hP

theorem locating_maintains {α : Type} (step : Locating α) : (Query.locating step).Maintains P :=
  (locating_respects hP.pair step).of_diagonal

theorem parse_maintains (located : LocatedSource) : (parse located).Maintains P :=
  (parse_respects hP.pair located).of_diagonal

theorem keep_maintains (c : ReflectedClass) : (keep c).Maintains P :=
  (keep_respects hP.pair c).of_diagonal

theorem reflect_maintains (identifier : String) : (reflect identifier).Maintains P :=
  (reflect_respects hP.pair identifier).of_diagonal

theorem hasClass_maintains (identifier : String) : (hasClass identifier).Maintains P :=
  (hasClass_respects hP.pair identifier).of_diagonal

theorem parent_maintains (c : ReflectedClass) : (parent c).Maintains P :=
  (parent_respects hP.pair c).of_diagonal

theorem keepAll_maintains (p : ParsedSource) : (keepAll p).Maintains P :=
  (keepAll_respects hP.pair p).of_diagonal

theorem listSupplies_maintains (supplies : List Supply) : (listSupplies supplies).Maintains P :=
  (listSupplies_respects hP.pair supplies).of_diagonal

theorem listLocators_maintains (positions : List Nat) : (listLocators positions).Maintains P :=
  (listLocators_respects hP.pair positions).of_diagonal

theorem allClasses_maintains : allClasses.Maintains P := (allClasses_respects hP.pair).of_diagonal

theorem gather_maintains {visit : ReflectedClass → Query (List PropertyDeclaration)}
    (h : ∀ d, (visit d).Maintains P) (c : ReflectedClass) : (gather visit c).Maintains P :=
  (gather_respects hP.pair (fun d => (h d).diagonal) c).of_diagonal

end

/-! ## Properties -/

/-- While a class is being gathered its properties are not added by another query. -/
theorem declaredWithin_unlisted {k : String} {fuel : Nat} {active : List String}
    (hk : k ∈ active) (c : ReflectedClass) :
    (declaredWithin fuel active c).Maintains fun s => s.declared.lookup k = none :=
  (declaredWithin_respects_unlisted hk c).maintains (fun _ hs => ⟨rfl, hs⟩) fun _ hs => hs.2

section

variable {P : Store → Prop} (hP : Store.Lasting P)
include hP

theorem immediateProperties_maintains (c : ReflectedClass) :
    (immediateProperties c).Maintains P := (immediateProperties_respects hP.pair c).of_diagonal

theorem climb_maintains {α : Type} {origin : String}
    {visit : α → ReflectedClass → Query (Bool × α)} (hvisit : ∀ a c, (visit a c).Maintains P)
    (fuel : Nat) (seen : List String) (a : α) (c : ReflectedClass) :
    (climb origin visit fuel seen a c).Maintains P :=
  (climb_respects hP.pair (fun a c => (hvisit a c).diagonal) fuel seen a c).of_diagonal

theorem parentNames_maintains (c : ReflectedClass) : (parentNames c).Maintains P :=
  (parentNames_respects hP.pair c).of_diagonal

theorem properties_maintains (c : ReflectedClass) : (properties c).Maintains P :=
  (properties_respects hP.pair c).of_diagonal

theorem property_maintains (c : ReflectedClass) (written : String) :
    (property c written).Maintains P := (property_respects hP.pair c written).of_diagonal

theorem hasProperty_maintains (c : ReflectedClass) (name : String) :
    (hasProperty c name).Maintains P := (hasProperty_respects hP.pair c name).of_diagonal

theorem setVisibility_maintains (p : Property) (value : Json) :
    (p.setVisibility value).Maintains P := by
  unfold Property.setVisibility
  split
  · exact .throw
  next v _ =>
    split
    next k _ => exact .modify (fun t ht => hP.visibilities t k v ht) fun _ => rfl
    · exact .pure

/-! ## Constants and default values -/

theorem firstRelative_maintains {valueIn : ReflectedClass → Query Value} {failure : Failure}
    (h : ∀ d, (valueIn d).Maintains P) (names : List String) :
    (firstRelative valueIn failure names).Maintains P :=
  (firstRelative_respects hP.pair (fun d => (h d).diagonal) names).of_diagonal

theorem resolveConstantWith_maintains {valueIn : ReflectedClass → String → Query Value}
    (h : ∀ d name, (valueIn d name).Maintains P) (c : ReflectedClass) (scope constant : String) :
    (resolveConstantWith valueIn c scope constant).Maintains P :=
  (resolveConstantWith_respects hP.pair (fun d name => (h d name).diagonal) c scope
    constant).of_diagonal

theorem constantWithin_maintains (fuel : Nat) (searched : List String) (c : ReflectedClass)
    (name : String) : (constantWithin fuel searched c name).Maintains P :=
  (constantWithin_respects hP.pair fuel searched c name).of_diagonal

theorem constantValue_maintains (c : ReflectedClass) (name : String) :
    (constantValue c name).Maintains P := (constantValue_respects hP.pair c name).of_diagonal

theorem declaringClass_maintains (p : Property) : p.declaringClass.Maintains P :=
  (declaringClass_respects hP.pair p).of_diagonal

theorem defaultValue_maintains (p : Property) : (defaultValue p).Maintains P :=
  (defaultValue_respects hP.pair p).of_diagonal

end

end StaticReflection
