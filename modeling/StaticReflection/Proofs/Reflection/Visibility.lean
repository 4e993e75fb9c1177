import StaticReflection.Proofs.Reflection.Lookup

/-!
# Changes of visibility

A changed visibility stands at a place: the key of the class that has the property, and the
name of the property. Nothing but the property there is shown by it, and no query looks at it,
so two stores of which one had a visibility changed are alike but for that place, whatever is
asked of both of them later (`Store.AlikeOn`).

> `Store.setVisibility_local`: in any session, whether a visibility is changed makes no
> difference to any other answer and any other property, and the property at the place shows
> the new visibility until it is changed again. What stands for no visibility changes nothing.
-/

namespace StaticReflection

open Folding Outcome Reflector Store

/-! ## Sessions -/

/-- What can be asked of a reflector, one query after the other. -/
inductive Query.Asked : {α : Type} → Query α → Prop
  | reflect (identifier : String) : Asked (Reflector.reflect identifier)
  | hasClass (identifier : String) : Asked (Reflector.hasClass identifier)
  | allClasses : Asked Reflector.allClasses
  | parent (c : ReflectedClass) : Asked (Reflector.parent c)
  | parentNames (c : ReflectedClass) : Asked (Reflector.parentNames c)
  | immediateProperties (c : ReflectedClass) : Asked (Reflector.immediateProperties c)
  | properties (c : ReflectedClass) : Asked (Reflector.properties c)
  | property (c : ReflectedClass) (name : String) : Asked (Reflector.property c name)
  | detachedProperty (c : ReflectedClass) (name : String) :
    Asked (Reflector.detachedProperty c name)
  | hasProperty (c : ReflectedClass) (name : String) : Asked (Reflector.hasProperty c name)
  | declaringClass (p : Property) : Asked p.declaringClass
  | defaultValue (p : Property) : Asked (Reflector.defaultValue p)
  | constantValue (c : ReflectedClass) (name : String) : Asked (Reflector.constantValue c name)
  | resolveConstant (c : ReflectedClass) (scope constant : String) :
    Asked (Reflector.resolveConstant c scope constant)
  | pure {α : Type} (a : α) : Asked (pure a)
  | bind {α β : Type} {q : Query α} {g : α → Query β} (hq : q.Asked)
    (hg : ∀ a, (g a).Asked) : Asked (q >>= g)

/-- Something that happens in a session: a query, another world, or the change of a
property's visibility. -/
inductive Act where
  | ask (q : Query Unit) (h : q.Asked)
  | world (w : World)
  | visibility (p : Property) (value : Json)

/-- The store after something happened in a session. -/
def Act.apply (s : Store) : Act → Store
  | .ask q _ => after q s
  | .world w => { s with world := w }
  | .visibility p value => after (p.setVisibility value) s

/-- The store after some things happened in a session. -/
def Store.afterActs (s : Store) (acts : List Act) : Store := acts.foldl Act.apply s

/-- Changes the visibility at a place. -/
def Act.Sets (k : PropertyKey) : Act → Prop
  | .visibility p value => p.place? = some k ∧ ∃ v : Visibility, value = .int v.flag
  | _ => False

/-- A property that a lookup comes to. -/
inductive Store.Obtains (s : Store) : Property → Prop
  | property {c : ReflectedClass} {name : String} {p : Property}
    (h : outcome (Reflector.property c name) s = .ok p) : Obtains s p
  | named {identifier name : String} {p : Property}
    (h : outcome (propertyOf identifier name) s = .ok p) : Obtains s p
  | properties {c : ReflectedClass} {ps : List Property} {p : Property}
    (h : outcome (Reflector.properties c) s = .ok ps) (hp : p ∈ ps) : Obtains s p
  | immediate {c : ReflectedClass} {ps : List Property} {p : Property}
    (h : outcome (Reflector.immediateProperties c) s = .ok ps) (hp : p ∈ ps) : Obtains s p

/-! ## What a property shows -/

namespace Property

/-- The bits of the modifiers that are no visibility. -/
def otherBits (p : Property) : Nat :=
  (if p.declaration.isStatic then Modifier.staticFlag else 0)
    + (if p.declaration.isReadonly then Modifier.readonlyFlag else 0)

/-- The visibility that a property has in a store. -/
def shown (p : Property) (s : Store) : Visibility :=
  (p.place?.bind fun k => s.visibilities.lookup k).getD p.declaration.visibility

/-- A property shows the same in two stores. -/
structure ShownAlike (p : Property) (s t : Store) : Prop where
  visibility : outcome p.visibility s = outcome p.visibility t
  modifiers : outcome p.modifiers s = outcome p.modifiers t
  display : outcome p.display s = outcome p.display t

/-- Where a property shows a visibility in a store, it shows another one in a second store,
and is shown alike apart from that. -/
structure ShownInstead (p : Property) (v : Visibility) (s t : Store) : Prop where
  visibility : outcome p.visibility s = .ok (p.shown s) ∧ outcome p.visibility t = .ok v
  modifiers : outcome p.modifiers s = .ok ((p.shown s).flag + p.otherBits)
    ∧ outcome p.modifiers t = .ok (v.flag + p.otherBits)
  display : ∃ front back, outcome p.display s = .ok (front ++ (p.shown s).name ++ back)
    ∧ outcome p.display t = .ok (front ++ v.name ++ back)

variable {p : Property} {s t : Store}

theorem visibility_eq (p : Property) (s : Store) : outcome p.visibility s = .ok (p.shown s) := rfl

theorem modifiers_eq (p : Property) (s : Store) :
    outcome p.modifiers s = .ok ((p.shown s).flag + p.otherBits) := by
  show Except.ok ((p.shown s).flag + _ + _) = Except.ok ((p.shown s).flag + (_ + _))
  rw [Nat.add_assoc]

/-- The visibility stands in the middle of the text of a property. -/
theorem display_eq (p : Property) :
    ∃ front back, ∀ s, outcome p.display s = .ok (front ++ (p.shown s).name ++ back) := by
  refine ⟨"Property [ " ++ (if p.isDefault && !p.declaration.isStatic then "<default> " else ""),
    " " ++ (if p.declaration.isStatic then "static " else "") ++ "$" ++ p.name ++ " ]",
    fun s => ?_⟩
  unfold display
  rw [outcome_bind_ok (visibility_eq p s), outcome_pure]
  simp only [String.append_assoc]

/-- All that a property shows of a store is its visibility. -/
theorem shownAlike_of_shown (h : p.shown s = p.shown t) : p.ShownAlike s t := by
  obtain ⟨front, back, hdisplay⟩ := display_eq p
  refine ⟨?_, ?_, ?_⟩
  · rw [visibility_eq, visibility_eq, h]
  · rw [modifiers_eq, modifiers_eq, h]
  · rw [hdisplay, hdisplay, h]

theorem shownInstead_of_shown {v : Visibility} (h : p.shown t = v) : p.ShownInstead v s t := by
  obtain ⟨front, back, hdisplay⟩ := display_eq p
  refine ⟨⟨visibility_eq p s, ?_⟩, ⟨modifiers_eq p s, ?_⟩, front, back, hdisplay s, ?_⟩
  · rw [visibility_eq, h]
  · rw [modifiers_eq, h]
  · rw [hdisplay, h]

/-! ## Changing a visibility -/

/-- The numbers of visibilities, and nothing else, stand for them. -/
theorem visibilityOf?_eq_some_iff {value : Json} {v : Visibility} :
    visibilityOf? value = some v ↔ value = .int v.flag := by
  refine ⟨fun h => ?_, ?_⟩
  · cases value with
    | int n =>
      have hn : (v.flag : Int) = n :=
        beq_iff_eq.mp (List.find?_some (p := fun u : Visibility => (u.flag : Int) == n) h)
      rw [hn]
    | _ => cases h
  · rintro rfl
    exact Visibility.ofFlag?_flag v

theorem setVisibility_refused {value : Json} (h : ∀ v : Visibility, value ≠ .int v.flag)
    (p : Property) (s : Store) :
    outcome (p.setVisibility value) s = .error .badVisibility
      ∧ after (p.setVisibility value) s = s := by
  have hnone : visibilityOf? value = none := by
    cases hv : visibilityOf? value with
    | none => rfl
    | some v => exact absurd (visibilityOf?_eq_some_iff.mp hv) (h v)
  unfold setVisibility
  rw [hnone]
  exact ⟨rfl, rfl⟩

/-- A visibility of a property that a class keeps is put at its place. -/
theorem setVisibility_placed {k : PropertyKey} (hp : p.place? = some k) (v : Visibility)
    (s : Store) :
    outcome (p.setVisibility (.int v.flag)) s = .ok ()
      ∧ after (p.setVisibility (.int v.flag)) s
        = { s with visibilities := putFront k v s.visibilities } := by
  unfold setVisibility
  rw [visibilityOf?_eq_some_iff.mpr rfl, hp]
  exact ⟨rfl, rfl⟩

/-- A property that no class keeps has no place for another visibility. -/
theorem setVisibility_unplaced (hp : p.place? = none) (value : Json) (s : Store) :
    after (p.setVisibility value) s = s := by
  unfold setVisibility
  rw [hp]
  cases visibilityOf? value <;> rfl

end Property

/-! ## Stores with a visibility changed -/

section

variable {k : PropertyKey} {v : Visibility} {vs : List (PropertyKey × Visibility)}

theorem lookup_putFront_self : (Property.putFront k v vs).lookup k = some v :=
  List.lookup_cons_self

theorem lookup_putFront_ne {j : PropertyKey} (h : j ≠ k) :
    (Property.putFront k v vs).lookup j = vs.lookup j := by
  unfold Property.putFront
  rw [List.lookup_cons, beq_false_of_ne h]
  exact lookup_filter_ne h

end

/-- Two stores that are alike but for visibilities, and have the same at some places. -/
def Store.AlikeOn (J : PropertyKey → Prop) (s t : Store) : Prop :=
  s.SameBut t ∧ ∀ j, J j → t.visibilities.lookup j = s.visibilities.lookup j

section

variable {J : PropertyKey → Prop} {s t : Store}

/-- Queries look at no visibility and change none. -/
theorem Store.lastingPair_alikeOn (J : PropertyKey → Prop) : LastingPair (AlikeOn J) := by
  have same (f : Store → Store) (hf : ∀ s vs, f { s with visibilities := vs }
      = { f s with visibilities := vs }) (hvs : ∀ s, (f s).visibilities = s.visibilities)
      (s t : Store) (h : AlikeOn J s t) : AlikeOn J (f s) (f t) := by
    obtain ⟨hsame, hJ⟩ := h
    refine ⟨?_, fun j hj => ?_⟩
    · unfold SameBut
      rw [hvs t]
      exact (congrArg f hsame).trans (hf s t.visibilities)
    · rw [hvs, hvs]
      exact hJ j hj
  have hsame (s t : Store) (h : AlikeOn J s t) : s.SameBut t := h.1
  refine ⟨⟨hsame, ?_, ?_, ?_⟩, ?_, ?_, ?_⟩
  · intro s t w h
    exact same (fun x => { x with world := w }) (fun _ _ => rfl) (fun _ => rfl) s t h
  · intro s t k p h
    exact same (fun x => { x with parsed := x.parsed ++ [(k, p)] }) (fun _ _ => rfl)
      (fun _ => rfl) s t h
  · intro s t c _ h
    exact same (fun x => { x with classes := x.classes ++ [(c.key, c)] }) (fun _ _ => rfl)
      (fun _ => rfl) s t h
  · intro s t k ds _ _ h
    exact same (fun x => { x with declared := x.declared ++ [(k, ds)] }) (fun _ _ => rfl)
      (fun _ => rfl) s t h
  · intro s t k u h
    exact same (fun x => { x with defaults := Property.putFront k u x.defaults })
      (fun _ _ => rfl) (fun _ => rfl) s t h
  · intro s t L h
    exact same (fun x => { x with folding := L }) (fun _ _ => rfl) (fun _ => rfl) s t h

theorem Query.Asked.respects {R : Store → Store → Prop} (hR : LastingPair R) {α : Type}
    {q : Query α} (h : q.Asked) : q.Respects R := by
  induction h with
  | reflect identifier => exact reflect_respects hR.toSteadyPair identifier
  | hasClass identifier => exact hasClass_respects hR.toSteadyPair identifier
  | allClasses => exact allClasses_respects hR.toSteadyPair
  | parent c => exact parent_respects hR.toSteadyPair c
  | parentNames c => exact parentNames_respects hR c
  | immediateProperties c => exact immediateProperties_respects hR c
  | properties c => exact properties_respects hR c
  | property c name => exact property_respects hR c name
  | detachedProperty c name => exact detachedProperty_respects hR c name
  | hasProperty c name => exact hasProperty_respects hR c name
  | declaringClass p => exact declaringClass_respects hR p
  | defaultValue p => exact defaultValue_respects hR p
  | constantValue c name => exact constantValue_respects hR c name
  | resolveConstant c scope constant => exact resolveConstant_respects hR c scope constant
  | pure a => exact .pure
  | bind _ _ hq hg => exact hq.bind hg

/-- Queries leave all visibilities as they are. -/
theorem Store.lastingPair_visibilities (vs : List (PropertyKey × Visibility)) :
    LastingPair (Diagonal fun s => s.visibilities = vs) := by
  refine ⟨⟨?_, ?_, ?_, ?_⟩, ?_, ?_, ?_⟩
  · rintro s _ ⟨rfl, _⟩
    rfl
  · rintro s _ w ⟨rfl, h⟩
    exact ⟨rfl, h⟩
  · rintro s _ k p ⟨rfl, h⟩
    exact ⟨rfl, h⟩
  · rintro s _ c _ ⟨rfl, h⟩
    exact ⟨rfl, h⟩
  · rintro s _ k ds _ _ ⟨rfl, h⟩
    exact ⟨rfl, h⟩
  · rintro s _ k v ⟨rfl, h⟩
    exact ⟨rfl, h⟩
  · rintro s _ L ⟨rfl, h⟩
    exact ⟨rfl, h⟩

/-- What is asked comes to the same in two stores with a lasting relation. -/
theorem Query.Asked.alike {R : Store → Store → Prop} (hR : LastingPair R) {α : Type} {q : Query α}
    (h : q.Asked) (hs : R s t) : outcome q s = outcome q t ∧ R (after q s) (after q t) := by
  obtain ⟨he, _, hafter, _⟩ := h.respects hR s.folding s t ⟨hs, rfl⟩
  exact ⟨he, hafter⟩

/-- Stores that answer alike whatever is asked of them. -/
structure Store.AnswersAlike (s t : Store) : Prop where
  world : t.world = s.world
  answers : ∀ (α : Type) (q : Query α), q.Asked → outcome q s = outcome q t

theorem Store.AlikeOn.answersAlike (h : AlikeOn J s t) : s.AnswersAlike t := by
  refine ⟨by rw [h.1], fun α q hq => ?_⟩
  exact (hq.alike (lastingPair_alikeOn J) h).1

theorem Store.AlikeOn.mono {J' : PropertyKey → Prop} (h : AlikeOn J s t)
    (hJ : ∀ j, J' j → J j) : AlikeOn J' s t := ⟨h.1, fun j hj => h.2 j (hJ j hj)⟩

/-- A visibility put at a place in both stores is the same in both. -/
theorem Store.AlikeOn.putFront (h : AlikeOn J s t) (k : PropertyKey) (v : Visibility) :
    AlikeOn (fun j => J j ∨ k = j) { s with visibilities := Property.putFront k v s.visibilities }
      { t with visibilities := Property.putFront k v t.visibilities } := by
  obtain ⟨hsame, hJ⟩ := h
  refine ⟨?_, fun j hj => ?_⟩
  · exact congrArg
      (fun x : Store => { x with visibilities := Property.putFront k v t.visibilities }) hsame
  · show (Property.putFront k v t.visibilities).lookup j
      = (Property.putFront k v s.visibilities).lookup j
    by_cases hk : j = k
    · rw [hk, lookup_putFront_self, lookup_putFront_self]
    · rw [lookup_putFront_ne hk, lookup_putFront_ne hk]
      rcases hj with hj | hj
      · exact hJ j hj
      · exact absurd hj.symm hk

end

/-! ## What happens in two sessions -/

section

variable {J : PropertyKey → Prop} {s t : Store} {k : PropertyKey}

theorem Act.apply_alikeOn (h : AlikeOn J s t) (act : Act) :
    AlikeOn (fun j => J j ∨ act.Sets j) (act.apply s) (act.apply t) := by
  cases act with
  | ask q hq =>
    refine (hq.alike (lastingPair_alikeOn J) h).2.mono fun j hj => ?_
    exact hj.resolve_right not_false
  | world w =>
    refine ((lastingPair_alikeOn J).world s t w h).mono fun j hj => ?_
    exact hj.resolve_right not_false
  | visibility p value =>
    show AlikeOn _ (after (p.setVisibility value) s) (after (p.setVisibility value) t)
    cases hp : p.place? with
    | none =>
      rw [Property.setVisibility_unplaced hp, Property.setVisibility_unplaced hp]
      refine h.mono fun j hj => hj.resolve_right fun hsets => ?_
      cases hp.symm.trans hsets.1
    | some k =>
      by_cases hv : ∃ v : Visibility, value = .int v.flag
      · obtain ⟨v, rfl⟩ := hv
        rw [(Property.setVisibility_placed hp v s).2, (Property.setVisibility_placed hp v t).2]
        refine (h.putFront k v).mono fun j hj => hj.imp_right fun hsets => ?_
        exact Option.some.inj (hp.symm.trans hsets.1)
      · have hrefused : ∀ v : Visibility, value ≠ .int v.flag := fun v he => hv ⟨v, he⟩
        rw [(Property.setVisibility_refused hrefused p s).2,
          (Property.setVisibility_refused hrefused p t).2]
        exact h.mono fun j hj => hj.resolve_right fun hsets => hv hsets.2

/-- Two sessions that go on alike are alike wherever they were, and wherever a visibility
was changed since. -/
theorem Store.AlikeOn.afterActs (h : AlikeOn J s t) (acts : List Act) :
    AlikeOn (fun j => J j ∨ ∃ act ∈ acts, act.Sets j) (s.afterActs acts) (t.afterActs acts) := by
  induction acts generalizing J s t with
  | nil =>
    refine h.mono fun j hj => hj.resolve_right ?_
    rintro ⟨act, hact, _⟩
    cases hact
  | cons act acts ih =>
    refine (ih (act.apply_alikeOn h)).mono fun j hj => ?_
    rcases hj with hj | ⟨other, hmem, hsets⟩
    · exact .inl (.inl hj)
    · rcases List.mem_cons.mp hmem with rfl | hmem
      · exact .inl (.inr hsets)
      · exact .inr ⟨other, hmem, hsets⟩

/-- What does not change the visibility at a place leaves it there. -/
theorem Act.lookup_apply {act : Act} (h : ¬act.Sets k) (s : Store) :
    (act.apply s).visibilities.lookup k = s.visibilities.lookup k := by
  cases act with
  | ask q hq =>
    have hkept := (hq.alike (lastingPair_visibilities s.visibilities) ⟨rfl, rfl⟩).2.2
    show (after q s).visibilities.lookup k = _
    rw [hkept]
  | world w => rfl
  | visibility p value =>
    show (after (p.setVisibility value) s).visibilities.lookup k = _
    cases hp : p.place? with
    | none => rw [Property.setVisibility_unplaced hp]
    | some j =>
      by_cases hv : ∃ v : Visibility, value = .int v.flag
      · have hne : k ≠ j := by
          rintro rfl
          exact h ⟨hp, hv⟩
        obtain ⟨v, rfl⟩ := hv
        rw [(Property.setVisibility_placed hp v s).2]
        exact lookup_putFront_ne hne
      · rw [(Property.setVisibility_refused (fun v he => hv ⟨v, he⟩) p s).2]

theorem Store.lookup_afterActs {acts : List Act} (h : ∀ act ∈ acts, ¬act.Sets k) (s : Store) :
    (s.afterActs acts).visibilities.lookup k = s.visibilities.lookup k := by
  induction acts generalizing s with
  | nil => rfl
  | cons act acts ih =>
    obtain ⟨hact, hacts⟩ := List.forall_mem_cons.mp h
    exact (ih hacts (act.apply s)).trans (Act.lookup_apply hact s)

end

/-! ## Locality -/

/-- A property that a class keeps, at its place. -/
def Property.IsOfClass (p : Property) : Prop := ∃ c d, p = Property.ofClass c d

theorem immediateProperties_gives (c : ReflectedClass) :
    Gives (fun ps => ∀ p ∈ ps, p.IsOfClass) (immediateProperties c) := by
  refine .of_bind fun ds => .pure fun p hp => ?_
  obtain ⟨d, _, rfl⟩ := List.mem_map.mp hp
  exact ⟨c, d, rfl⟩

/-- What every visit of a class gives, a walk through its ancestors gives. -/
theorem climb_gives {α : Type} {P : α → Prop} {origin : String}
    {visit : α → ReflectedClass → Query (Bool × α)}
    (hvisit : ∀ a c, P a → Gives (fun r => P r.2) (visit a c)) (fuel : Nat) (seen : List String)
    {a : α} (ha : P a) (c : ReflectedClass) : Gives P (climb origin visit fuel seen a c) := by
  induction fuel generalizing seen a c with
  | zero =>
    intro s b h
    cases h
  | succ fuel ih =>
    unfold climb
    simp only
    split
    · intro s b h
      cases h
    · refine (hvisit a c ha).bind fun r hr => ?_
      split
      · exact .pure hr
      · refine .of_bind fun next => ?_
        cases next with
        | none => exact .pure hr
        | some d => exact ih (c.key :: seen) hr d

theorem property_gives (c : ReflectedClass) (name : String) :
    Gives Property.IsOfClass (property c name) := by
  have hvisit (found : Option Property) (d : ReflectedClass)
      (hfound : ∀ q ∈ found, q.IsOfClass) :
      Gives (fun r : Bool × Option Property => ∀ q ∈ r.2, q.IsOfClass) (do
        let here := (← immediateProperties d).find? fun p =>
          p.name == PropertyDeclaration.bareName name
        return (here.isNone, here)) := by
    refine (immediateProperties_gives d).bind fun ps hps => .pure fun q hq => ?_
    exact hps q (List.mem_of_find?_eq_some hq)
  refine Gives.bind (P := fun found => ∀ q ∈ found, q.IsOfClass) ?_ fun found hfound => ?_
  · exact .of_bind fun n => climb_gives hvisit n [] (fun q hq => by cases hq) c
  · cases found with
    | none =>
      intro s b h
      cases h
    | some q => exact .pure (hfound q rfl)

theorem properties_gives (c : ReflectedClass) :
    Gives (fun ps => ∀ p ∈ ps, p.IsOfClass) (properties c) := by
  have hvisit (acc : List Property) (d : ReflectedClass) (hacc : ∀ q ∈ acc, q.IsOfClass) :
      Gives (fun r : Bool × List Property => ∀ q ∈ r.2, q.IsOfClass) (do
        return (true, shadow acc (← immediateProperties d))) := by
    refine (immediateProperties_gives d).bind fun ps hps => .pure fun q hq => ?_
    exact (mem_of_mem_shadow hq).elim (hacc q) (hps q)
  exact .of_bind fun n => climb_gives hvisit n [] (fun q hq => by cases hq) c

/-- Every lookup comes to properties that classes keep. -/
theorem Store.Obtains.isOfClass {s : Store} {p : Property} (h : s.Obtains p) : p.IsOfClass := by
  cases h with
  | property h => exact property_gives _ _ s p h
  | named h =>
    have hgives (identifier name : String) : Gives Property.IsOfClass (propertyOf identifier name) :=
      .of_bind fun c => property_gives c name
    exact hgives _ _ s p h
  | properties h hp => exact properties_gives _ s _ h p hp
  | immediate h hp => exact immediateProperties_gives _ s _ h p hp

/-- Changing the visibility of a property at a place to what a value stands for makes a
difference to that property alone. -/
structure Store.SetsLocally (s : Store) (p : Property) (k : PropertyKey) (value : Json) :
    Prop where
  /-- What stands for no visibility is an error, and changes nothing. -/
  refused : (∀ v : Visibility, value ≠ .int v.flag) →
    outcome (p.setVisibility value) s = .error .badVisibility
      ∧ after (p.setVisibility value) s = s
  accepted : ∀ v : Visibility, value = .int v.flag → outcome (p.setVisibility value) s = .ok ()
  /-- Whatever happens later, what is asked then comes to the same. -/
  answers : ∀ later,
    (s.afterActs later).AnswersAlike ((after (p.setVisibility value) s).afterActs later)
  /-- The property at the place shows the visibility, however it is found, until it is changed
  again; its other modifiers are what they were. -/
  itself : ∀ v : Visibility, value = .int v.flag → ∀ later, (∀ act ∈ later, ¬act.Sets k) →
    ∀ q : Property, q.place? = some k → q.ShownInstead v (s.afterActs later)
      ((after (p.setVisibility value) s).afterActs later)
  /-- A property at another place shows what it would have shown. -/
  others : ∀ later, ∀ q : Property,
    q.place? ≠ some k ∨ (∃ act ∈ later, act.Sets k) →
      q.ShownAlike (s.afterActs later) ((after (p.setVisibility value) s).afterActs later)

theorem setVisibility_setsLocally {p : Property} {k : PropertyKey} (hp : p.place? = some k)
    (s : Store) (value : Json) : s.SetsLocally p k value := by
  have halike : AlikeOn (· ≠ k) s (after (p.setVisibility value) s) := by
    by_cases hv : ∃ v : Visibility, value = .int v.flag
    · obtain ⟨v, rfl⟩ := hv
      rw [(Property.setVisibility_placed hp v s).2]
      exact ⟨rfl, fun j hj => lookup_putFront_ne hj⟩
    · rw [(Property.setVisibility_refused (fun v he => hv ⟨v, he⟩) p s).2]
      exact ⟨rfl, fun _ _ => rfl⟩
  refine ⟨fun h => Property.setVisibility_refused h p s, ?_, fun later => ?_, ?_, ?_⟩
  · rintro v rfl
    exact (Property.setVisibility_placed hp v s).1
  · exact (halike.afterActs later).answersAlike
  · rintro v rfl later hlater q hq
    apply Property.shownInstead_of_shown
    unfold Property.shown
    rw [hq, Option.bind_some, lookup_afterActs hlater, (Property.setVisibility_placed hp v s).2]
    show ((Property.putFront k v s.visibilities).lookup k).getD _ = v
    rw [lookup_putFront_self, Option.getD_some]
  · intro later q hq
    apply Property.shownAlike_of_shown
    unfold Property.shown
    cases hplace : q.place? with
    | none => rfl
    | some j =>
      rw [Option.bind_some, Option.bind_some, (halike.afterActs later).2 j ?_]
      rcases hq with hq | hq
      · rw [hplace] at hq
        exact .inl fun he => hq (congrArg some he)
      · by_cases hj : j = k
        · exact .inr (hj ▸ hq)
        · exact .inl hj

/-- In any session, before and after anything else in it, changing the visibility of a
property that was found is local. -/
theorem Store.setVisibility_local (w : World) (first more : List Act) {p : Property}
    (hp : ((ofWorld w).afterActs first).Obtains p) (value : Json) :
    ∃ c d, p = Property.ofClass c d
      ∧ ((ofWorld w).afterActs (first ++ more)).SetsLocally p (c.key, d.name) value := by
  obtain ⟨c, d, rfl⟩ := hp.isOfClass
  exact ⟨c, d, rfl, setVisibility_setsLocally rfl _ value⟩

/-- A property that a class inherits. -/
def inheritedProperty : Property :=
  Property.ofClass inherited { name := "x", span := ⟨1, 17, 1, 26⟩ }

/-- Asking for the properties of the descendant, and a truth value for a visibility. -/
def inheritedActs : List Act :=
  [.ask _ (.bind (.properties inheriting) fun _ => .pure ()),
    .visibility inheritedProperty (.bool true)]

/-- An inherited property that is found by way of the descendant and made private is private
from then on; the descendant's own property shows what it did, and the answers are the same. -/
theorem setVisibility_local_inherited :
    (ofWorld inheritingWorld).Obtains inheritedProperty
      ∧ inheritedProperty.ShownInstead .isPrivate
          ((ofWorld inheritingWorld).afterActs inheritedActs)
          ((after (inheritedProperty.setVisibility (.int 4))
            (ofWorld inheritingWorld)).afterActs inheritedActs)
      ∧ (Property.ofClass inheriting { name := "y" }).ShownAlike
          ((ofWorld inheritingWorld).afterActs inheritedActs)
          ((after (inheritedProperty.setVisibility (.int 4))
            (ofWorld inheritingWorld)).afterActs inheritedActs)
      ∧ ((ofWorld inheritingWorld).afterActs inheritedActs).AnswersAlike
          ((after (inheritedProperty.setVisibility (.int 4))
            (ofWorld inheritingWorld)).afterActs inheritedActs) := by
  have htraits : ∀ d ∈ inheritingWorld.classes, d.traitNames = [] := by
    rw [classes_inheritingWorld]
    exact List.forall_mem_cons.mpr ⟨rfl, List.forall_mem_singleton.mpr rfl⟩
  have hcomes := property_comes (L := []) (K := []) isStatic_inheritingWorld lineage_inheriting
    find?_inheriting htraits "x" _ within_ofWorld
  have hproperty : outcome (Reflector.property inheriting "x") (ofWorld inheritingWorld)
      = .ok inheritedProperty := hcomes.1
  have hobtained : (ofWorld inheritingWorld).Obtains inheritedProperty := .property hproperty
  obtain ⟨c, d, he, hlocal⟩ :=
    setVisibility_local inheritingWorld [] [] hobtained (.int 4)
  have hplace : inheritedProperty.place? = some (c.key, d.name) := congrArg Property.place? he
  refine ⟨hobtained, ?_, ?_, hlocal.answers inheritedActs⟩
  · refine hlocal.itself .isPrivate rfl inheritedActs ?_ inheritedProperty hplace
    refine List.forall_mem_cons.mpr ⟨not_false, List.forall_mem_singleton.mpr ?_⟩
    rintro ⟨_, v, hv⟩
    cases hv
  · refine hlocal.others inheritedActs _ (.inl ?_)
    rw [← hplace]
    show some ("b", "y") ≠ some ("a", "x")
    decide

end StaticReflection
