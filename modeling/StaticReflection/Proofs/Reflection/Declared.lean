import StaticReflection.Proofs.Reflection.Extent

/-!
# Gathering properties through a store

`Reflector.declaredWithin` gathers the properties of a class as `World.gathered` does,
but keeps what it found and gives up when a class comes up that is being gathered. Both
come to the same:

> `declared_comes`: from every coherent store the properties that a class has of its own
> come to the outcome that gathering them has for good (`World.Gathers`).

A class that comes up while it is being gathered has no other outcome than a failure
without end: gathering it takes more fuel than gathering it again on the way
(`World.Leads`), and there is no least such fuel.
-/

namespace StaticReflection

open Folding Reflector Store

/-- Gathering a class to an end takes more than gathering another on the way to its end. -/
def World.Leads (w : World) (d c : ReflectedClass) : Prop :=
  ∀ m, w.gathered m d ≠ Outcome.endless → ∃ m' < m, w.gathered m' c ≠ Outcome.endless

namespace World

variable {w : World} {c d e : ReflectedClass}

theorem Leads.trans (h : w.Leads d c) (h' : w.Leads c e) : w.Leads d e := by
  intro m hm
  obtain ⟨k, hk, hc⟩ := h m hm
  obtain ⟨j, hj, he⟩ := h' k hc
  exact ⟨j, Nat.lt_trans hj hk, he⟩

/-- A class that leads to itself is not gathered with any fuel. -/
theorem Leads.gathered_self (h : w.Leads c c) (m : Nat) : w.gathered m c = Outcome.endless := by
  induction m using Nat.strongRecOn with
  | ind m ih =>
    by_cases hm : w.gathered m c = Outcome.endless
    · exact hm
    · obtain ⟨k, hk, hne⟩ := h m hm
      exact absurd (ih k hk) hne

theorem Leads.gathers_self {o : Outcome (List PropertyDeclaration)} (h : w.Leads c c)
    (ho : w.Gathers c o) : o = Outcome.endless := by
  obtain ⟨n, hn⟩ := ho
  exact (hn n (Nat.le_refl n)).symm.trans (h.gathered_self n)

end World

section

variable {w : World} {L : List ConstantKey} {K : List String}

theorem addOwn_comes (c : ReflectedClass) (ds : List PropertyDeclaration)
    (d : PropertyDeclaration) :
    Comes (Within w L K) (addOwn c ds d) (.ok (ReflectedClass.addDeclaration ds d))
      (Within w L K) := by
  unfold addOwn ReflectedClass.addDeclaration
  split
  · exact (warn_comes _).bind_ok .pure
  · exact .pure

theorem ownProperties_comes (c : ReflectedClass) :
    Comes (Within w L K) (ownProperties c) c.ownDeclarations (Within w L K) := by
  unfold ownProperties ReflectedClass.ownDeclarations
  refine .foldlM (fun acc n _ => ?_) []
  refine Comes.bind .lift fun ds _ => ?_
  rw [← List.foldlM_pure]
  exact .foldlM (fun acc d _ => addOwn_comes c acc d) acc

/-- The traits of a class are added one after the other, and with enough fuel that is what
`World.addTrait` does. Where the class is gathered to an end so is each of the traits. -/
theorem addTraits_comes (hw : w.IsStatic) {c : ReflectedClass}
    {visit : ReflectedClass → Query (List PropertyDeclaration)}
    (hvisit : ∀ used o, w.find? used.key = some used → w.Leads c used → w.Gathers used o →
      Comes (Within w L K) (visit used) o (Within w L K))
    (names : List String) (acc : List PropertyDeclaration)
    (hne : ∀ m, w.gathered (m + 1) c ≠ Outcome.endless →
      names.foldlM (w.addTrait (w.gathered m)) acc ≠ Outcome.endless) :
    ∃ o, Comes (Within w L K) (names.foldlM (fun acc name => do
          let used ← reflect name
          return merge acc (← visit used)) acc) o (Within w L K)
      ∧ ∃ N, ∀ m, N ≤ m → names.foldlM (w.addTrait (w.gathered m)) acc = o := by
  induction names generalizing acc with
  | nil => exact ⟨.ok acc, .pure, 0, fun _ _ => rfl⟩
  | cons name rest ih =>
    have hreflect := reflect_comes (L := L) (K := K) hw name
    cases hans : w.answer name with
    | error f =>
      rw [hans] at hreflect
      refine ⟨.error f, ?_, 0, fun m _ => ?_⟩
      · rw [List.foldlM_cons]
        exact .bind_error hreflect.bind_error
      · rw [List.foldlM_cons, World.addTrait, hans]
        rfl
    | ok used =>
      rw [hans] at hreflect
      have hstep (m : Nat) : (name :: rest).foldlM (w.addTrait (w.gathered m)) acc
          = w.gathered m used >>= fun ds =>
              rest.foldlM (w.addTrait (w.gathered m)) (merge acc ds) := by
        rw [List.foldlM_cons, World.addTrait, hans, Outcome.ok_bind, bind_assoc]
        rfl
      -- the trait is gathered on the way, with less fuel than the class
      have hleads : w.Leads c used := by
        intro m hm
        cases m with
        | zero => exact absurd rfl hm
        | succ m =>
          refine ⟨m, Nat.lt_succ_self m, fun he => hne m hm ?_⟩
          rw [hstep, he]
          rfl
      obtain ⟨o, ho⟩ := World.exists_gathers (w := w) used
      have hused := hvisit used o (World.find?_key_of_answer hans) hleads ho
      obtain ⟨N, hN⟩ := ho
      cases o with
      | error f =>
        refine ⟨.error f, ?_, N, fun m hm => ?_⟩
        · rw [List.foldlM_cons]
          exact .bind_error (hreflect.bind_ok hused.bind_error)
        · rw [hstep, hN m hm]
          rfl
      | ok ds =>
        have hrest (m : Nat) (hm : w.gathered (m + 1) c ≠ Outcome.endless) :
            rest.foldlM (w.addTrait (w.gathered m)) (merge acc ds) ≠ Outcome.endless := by
          have hall := hne m hm
          rw [hstep] at hall
          have hsettled := Outcome.ne_endless_of_bind hall
          rw [World.Gathers.eq_of_gathered ⟨N, hN⟩ hsettled] at hall
          exact hall
        obtain ⟨o, hcomes, M, hM⟩ := ih (merge acc ds) hrest
        refine ⟨o, ?_, max N M, fun m hm => ?_⟩
        · rw [List.foldlM_cons]
          have hmerge := hused.bind_ok (g := fun ds => pure (merge acc ds)) .pure
          exact (hreflect.bind_ok hmerge).bind_ok hcomes
        · rw [hstep, hN m (Nat.le_trans (Nat.le_max_left N M) hm)]
          exact hM m (Nat.le_trans (Nat.le_max_right N M) hm)

/-- Gathering a class comes to its outcome if gathering the traits that it leads to does. -/
theorem gather_comes (hw : w.IsStatic) {c : ReflectedClass}
    {o : Outcome (List PropertyDeclaration)} (ho : w.Gathers c o)
    {visit : ReflectedClass → Query (List PropertyDeclaration)}
    (hvisit : ∀ used o, w.find? used.key = some used → w.Leads c used → w.Gathers used o →
      Comes (Within w L K) (visit used) o (Within w L K)) :
    Comes (Within w L K) (gather visit c) o (Within w L K) := by
  have hown := ownProperties_comes (w := w) (L := L) (K := K) c
  obtain ⟨n, hn⟩ := ho
  cases hc : c.ownDeclarations with
  | error f =>
    have hout := hn (n + 1) (Nat.le_succ n)
    rw [World.gathered, hc] at hout
    rw [hc] at hown
    rw [← hout]
    exact hown.bind_error
  | ok own =>
    have hstep (m : Nat) : w.gathered (m + 1) c
        = c.traitNames.foldlM (w.addTrait (w.gathered m)) own := by
      rw [World.gathered, hc, Outcome.ok_bind]
    rw [hc] at hown
    obtain ⟨o', hcomes, N, hN⟩ := addTraits_comes hw hvisit c.traitNames own fun m hm =>
      hstep m ▸ hm
    have hsame : o' = o := by
      have hlarge := hn (max n N + 1) (Nat.le_succ_of_le (Nat.le_max_left n N))
      rw [hstep, hN _ (Nat.le_max_right n N)] at hlarge
      exact hlarge
    rw [← hsame]
    exact hown.bind_ok hcomes

/-- With more fuel than classes that are left, and on a way whose classes all lead to it,
a class is gathered as it is without a store. -/
theorem declaredWithin_comes (hw : w.IsStatic) {fuel : Nat} {active : List String}
    {c : ReflectedClass} {o : Outcome (List PropertyDeclaration)}
    (hfuel : unused w.knownKeys active < fuel) (hc : w.find? c.key = some c)
    (ho : w.Gathers c o)
    (hactive : ∀ k ∈ active, ∃ d, w.find? k = some d ∧ w.Leads d c) :
    Comes (Within w L K) (declaredWithin fuel active c) o (Within w L K) := by
  induction fuel generalizing active c o with
  | zero => exact absurd hfuel (Nat.not_lt_zero _)
  | succ fuel ih =>
    refine .get_bind fun s hs => ?_
    cases hkept : s.declared.lookup c.key with
    | some ds =>
      -- what is kept is what gathering comes to
      obtain ⟨d, hd, hds⟩ := hs.coherent.declared _ _ hkept
      rw [hc] at hd
      cases hd
      rw [ho.unique hds]
      exact ⟨rfl, hs⟩
    | none =>
      refine Comes.run ?_ hs
      by_cases hmem : active.contains c.key = true
      · -- the class leads to itself, which without a store is a run without end
        obtain ⟨d, hd, hleads⟩ := hactive _ (List.contains_iff_mem.mp hmem)
        rw [hc] at hd
        cases hd
        rw [hleads.gathers_self ho]
        simp only
        rw [if_pos hmem]
        exact .bind_error .throw
      · have hnew : c.key ∉ active := fun h => hmem (List.contains_iff_mem.mpr h)
        have hless := unused_cons_lt (World.key_mem_knownKeys (World.mem_classes_of_find? hc)) hnew
        have hgather : Comes (Within w L K) (gather (declaredWithin fuel (c.key :: active)) c) o
            (Within w L K) := by
          refine gather_comes hw ho fun used o' hused hleads ho' => ?_
          refine ih (by omega) hused ho' fun k hk => ?_
          rcases List.mem_cons.mp hk with rfl | hk
          · exact ⟨c, hc, hleads⟩
          · obtain ⟨d, hd, hdc⟩ := hactive k hk
            exact ⟨d, hd, hdc.trans hleads⟩
        simp only
        rw [if_neg hmem]
        cases o with
        | error f => exact hgather.bind_error
        | ok ds =>
          exact hgather.bind_ok (.bind_ok (.modify fun t ht => ht.addDeclared hc ho) .pure)

theorem declared_comes (hw : w.IsStatic) {c : ReflectedClass}
    {o : Outcome (List PropertyDeclaration)} (hc : w.find? c.key = some c)
    (ho : w.Gathers c o) : Comes (Within w L K) (declared c) o (Within w L K) := by
  refine .get_bind fun s hs => Comes.run ?_ hs
  have hfuel : unused w.knownKeys [] < s.depth :=
    Nat.lt_of_le_of_lt unused_le_length hs.coherent.keys_lt_depth
  exact declaredWithin_comes hw hfuel hc ho fun _ h => by cases h

theorem immediateProperties_comes (hw : w.IsStatic) {c : ReflectedClass}
    {o : Outcome (List PropertyDeclaration)} (hc : w.find? c.key = some c)
    (ho : w.Gathers c o) :
    Comes (Within w L K) (immediateProperties c) (o >>= fun ds => .ok (ds.map (Property.ofClass c)))
      (Within w L K) :=
  (declared_comes hw hc ho).bind fun _ _ => .pure

end

end StaticReflection
