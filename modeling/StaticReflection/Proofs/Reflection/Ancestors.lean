import StaticReflection.Proofs.Reflection.Declared

/-!
# Properties of a class and its ancestors

A visit of a class and its ancestors has as much fuel as the store that it begins with
gives it, which is more in a store that knows more. It makes no difference:

> `climb_agree`: two visits with more fuel than classes that are left agree, if what they
> do in each class does.

A property that is found so is owned by a class (`World.Owns`), and from such a property
every coherent store finds that class again.
-/

namespace StaticReflection

open Folding Outcome Reflector Store

/-- A class that is the first with its key, and is kept or can be found again by its name. -/
def World.Has (w : World) (K : List String) (c : ReflectedClass) : Prop :=
  w.find? c.key = some c ∧ (c.key ∈ K ∨ c.key.isEmpty = false)

/-- A property that a class has of its own. -/
def World.Owns (w : World) (K : List String) (p : Property) : Prop :=
  ∃ c ds d, w.Has K c ∧ w.Gathers c (.ok ds) ∧ ds.find? (fun e => e.name == d.name) = some d
    ∧ p = Property.ofClass c d

namespace World

variable {w : World} {K : List String}

theorem has_of_answer {identifier : String} {c : ReflectedClass}
    (h : w.answer identifier = .ok c) : w.Has K c := by
  obtain ⟨hfind, hempty⟩ := find?_of_answer h
  exact ⟨find?_key hfind, .inr (key_of_find? hfind ▸ hempty)⟩

theorem has_of_parent? {c p : ReflectedClass} (h : w.parent? c = .ok (some p)) : w.Has K p := by
  unfold parent? at h
  split at h
  · cases h
  next name _ =>
    cases hans : w.answer name with
    | error f => rw [hans] at h; cases h
    | ok d => rw [hans] at h; cases h; exact has_of_answer hans

theorem Has.mem_classes {c : ReflectedClass} (h : w.Has K c) : c ∈ w.classes :=
  mem_classes_of_find? h.1

/-- The name of a class that can be found again names it. -/
theorem answer_name {c : ReflectedClass} (h : w.find? c.key = some c)
    (hempty : c.key.isEmpty = false) : w.answer c.name = .ok c := by
  have hkey : Identifier.normalize c.name = c.key := rfl
  unfold answer
  simp only
  rw [hkey, hempty, h]
  rfl

end World

section

variable {w : World} {L : List ConstantKey} {K : List String} {α : Type}

theorem parent_agree (hw : w.IsStatic) (c : ReflectedClass) :
    Agree (Twin (Within w L K)) (fun o => w.parent? c = o) (parent c) (parent c) :=
  (parent_comes hw c).agree rfl

theorem climb_agree (hw : w.IsStatic) {origin : String} {P : α → Prop}
    {visit : α → ReflectedClass → Query (Bool × α)}
    (hvisit : ∀ a c, w.Has K c → Agree (Twin (Within w L K)) (Yields fun r => P r.2)
      (visit a c) (visit a c))
    {m n : Nat} {seen : List String} {a : α} {c : ReflectedClass} (hc : w.Has K c)
    (hm : unused w.knownKeys seen < m) (hn : unused w.knownKeys seen < n) :
    Agree (Twin (Within w L K)) (Yields P) (climb origin visit m seen a c)
      (climb origin visit n seen a c) := by
  induction m generalizing n seen a c with
  | zero => exact absurd hm (Nat.not_lt_zero _)
  | succ m ih =>
    obtain ⟨n, rfl⟩ : ∃ k, n = k + 1 := ⟨n - 1, by omega⟩
    unfold climb
    simp only
    by_cases hseen : seen.contains c.key = true
    · rw [if_pos hseen, if_pos hseen]
      exact .throw_bind yields_error
    · -- a class that was not seen uses up one of those that are left
      rw [if_neg hseen, if_neg hseen]
      have hless := unused_cons_lt (World.key_mem_knownKeys hc.mem_classes)
        (fun h => hseen (List.contains_iff_mem.mpr h))
      refine (hvisit a c hc).bind (fun r hr => ?_) fun _ _ => yields_error
      have hb : P r.2 := hr r rfl
      by_cases hgoes : (!r.1) = true
      · rw [if_pos hgoes, if_pos hgoes]
        exact .pure (yields_ok hb)
      · rw [if_neg hgoes, if_neg hgoes]
        refine (parent_agree hw c).bind (fun next hnext => ?_) fun _ _ => yields_error
        cases next with
        | none => exact .pure (yields_ok hb)
        | some p => exact ih (World.has_of_parent? hnext) (by omega) (by omega)

/-- A climb from the start does not depend on the store. -/
theorem climbFrom_agree (hw : w.IsStatic) {P : α → Prop}
    {visit : α → ReflectedClass → Query (Bool × α)}
    (hvisit : ∀ a c, w.Has K c → Agree (Twin (Within w L K)) (Yields fun r => P r.2)
      (visit a c) (visit a c))
    {c : ReflectedClass} (hc : w.Has K c) (a : α) :
    Agree (Twin (Within w L K)) (Yields P) (climbFrom c a visit) (climbFrom c a visit) := by
  refine .get_bind fun s s' hs => ?_
  have hfuel {t : Store} (ht : t.Within w L K) : unused w.knownKeys [] < t.depth :=
    Nat.lt_of_le_of_lt unused_le_length ht.coherent.keys_lt_depth
  exact climb_agree hw hvisit hc (hfuel hs.1) (hfuel hs.2) s s' hs

theorem properties_agree (hw : w.IsStatic) {c : ReflectedClass} (hc : w.Has K c) :
    Agree (Twin (Within w L K)) (Yields fun _ => True) (properties c) (properties c) := by
  refine climbFrom_agree hw (fun acc d hd => ?_) hc []
  obtain ⟨o, ho⟩ := World.exists_gathers (w := w) d
  have himmediate := (immediateProperties_comes (L := L) (K := K) hw hd.1 ho).agree (Yields.any _)
  exact himmediate.bind (fun _ _ => .pure (yields_ok trivial)) fun _ _ => yields_error

/-- A property of a class with a name, if it has one, is one that it owns. -/
theorem owns_of_find? {c : ReflectedClass} {ds : List PropertyDeclaration} {name : String}
    {p : Property} (hc : w.Has K c) (hds : w.Gathers c (.ok ds))
    (h : (ds.map (Property.ofClass c)).find? (fun p => p.name == name) = some p) :
    w.Owns K p := by
  rw [List.find?_map] at h
  obtain ⟨d, hd, rfl⟩ := Option.map_eq_some_iff.mp h
  have hname : d.name = name := by
    have := List.find?_some hd
    exact eq_of_beq this
  exact ⟨c, ds, d, hc, hds, hname ▸ hd, rfl⟩

/-- The property of a name does not depend on the store, and a class owns it. -/
theorem property_agree (hw : w.IsStatic) {c : ReflectedClass} (hc : w.Has K c)
    (written : String) :
    Agree (Twin (Within w L K)) (Yields (w.Owns K)) (property c written) (property c written) := by
  refine Agree.bind (climbFrom_agree hw (P := fun found => ∀ p, found = some p → w.Owns K p)
    (fun _ d hd => ?_) hc none) (fun found hfound => ?_) fun _ _ => yields_error
  · -- what a visit finds, the class that it visits owns
    obtain ⟨o, ho⟩ := World.exists_gathers (w := w) d
    have himmediate : Agree (Twin (Within w L K))
        (fun r => (o >>= fun ds => .ok (ds.map (Property.ofClass d))) = r)
        (immediateProperties d) (immediateProperties d) :=
      (immediateProperties_comes hw hd.1 ho).agree rfl
    refine himmediate.bind (fun ps hps => ?_) fun _ _ => yields_error
    refine .pure (yields_ok fun p hp => ?_)
    cases o with
    | error f => cases hps
    | ok ds =>
      rw [← Except.ok.inj hps] at hp
      exact owns_of_find? hd ho hp
  · cases found with
    | none => exact .throw yields_error
    | some p => exact .pure (yields_ok (hfound _ rfl p rfl))

/-- From an owned property every coherent store finds the class that has it. -/
theorem declaringClass_comes (hw : w.IsStatic) {c : ReflectedClass} (hc : w.Has K c)
    (d : PropertyDeclaration) :
    Comes (Within w L K) (Property.ofClass c d).declaringClass (.ok c) (Within w L K) := by
  refine .get_bind fun s hs => ?_
  have hplace : ((Property.ofClass c d).place?.bind fun k => s.classes.lookup k.1)
      = s.classes.lookup c.key := rfl
  rw [hplace]
  cases hkept : s.classes.lookup c.key with
  | some known =>
    have hfind := hs.coherent.classes _ _ hkept
    rw [hc.1] at hfind
    cases hfind
    exact ⟨rfl, hs⟩
  | none =>
    -- a class that is not kept has a name by which it is found
    have hempty : c.key.isEmpty = false := by
      rcases hc.2 with hmem | hempty
      · have := hs.kept _ hmem
        rw [hkept] at this
        cases this
      · exact hempty
    have hreflect := reflect_comes (L := L) (K := K) hw c.name
    rw [World.answer_name hc.1 hempty] at hreflect
    exact hreflect s hs

end

end StaticReflection
