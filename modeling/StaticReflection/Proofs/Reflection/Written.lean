import StaticReflection.Proofs.Reflection.History

/-!
# Where declarations are written

The properties that a class has of its own are declared in its body or in the traits that
it uses, and in theirs. `World.Written` follows the traits from the class to the place:

> `World.Gathers.exists_written`: every property that gathering a class comes to is written
> in the class or in a trait that it leads to, and its default is an expression in the
> source of that place (`World.Written.source`).
-/

namespace StaticReflection

open Folding Outcome Reflector Store

/-! ## What the nodes of a class declare -/

namespace PropertyDeclaration

theorem named_yields (d : PropertyDeclaration) : (named d).Yields fun d' => d' = d := by
  unfold named
  split
  · exact yields_error
  · exact yields_ok rfl

theorem ofParameter_default (p : ParsedSource) (s : Sited) :
    (ofParameter p s).Yields fun d => d.default = none := by
  unfold ofParameter
  split
  · exact yields_error
  · intro d hd
    rw [named_yields _ d hd]
    rfl

theorem ofPart?_source {p : ParsedSource} {common d : PropertyDeclaration} {n : Node}
    (hcommon : common.default = none) (h : ofPart? p common n = some d) {e : Expression}
    (he : d.default = some e) : e.source = p := by
  unfold ofPart? at h
  split at h
  · obtain ⟨v, _, rfl⟩ := Option.map_eq_some_iff.mp h
    obtain ⟨m, _, rfl⟩ := Option.map_eq_some_iff.mp he
    rfl
  · split at h
    · cases h
      rw [hcommon] at he
      cases he
    · cases h

/-- The defaults of the properties that a node declares are in the source of the node. -/
theorem ofNode_source (p : ParsedSource) (s : Sited) :
    (ofNode p s).Yields fun ds => ∀ d ∈ ds, ∀ e, d.default = some e → e.source = p := by
  unfold ofNode
  refine yields_ite yields_error (yields_ite ?_ ?_)
  · refine Yields.bind (ofParameter_default p s) fun d hd => yields_ok ?_
    refine List.forall_mem_singleton.mpr fun e he => ?_
    rw [hd] at he
    cases he
  · apply yields_mapM
    intro d hd d' hd' e he
    obtain ⟨n, _, hpart⟩ := List.mem_filterMap.mp hd
    rw [named_yields d d' hd'] at he
    exact ofPart?_source rfl hpart he

end PropertyDeclaration

theorem ReflectedClass.mem_of_addDeclarations {d : PropertyDeclaration}
    {ds more : List PropertyDeclaration} (h : d ∈ more.foldl addDeclaration ds) :
    d ∈ ds ∨ d ∈ more := by
  induction more generalizing ds with
  | nil => exact .inl h
  | cons x rest ih =>
    rcases ih h with h | h
    · unfold addDeclaration at h
      split at h
      · exact .inl h
      · rcases List.mem_append.mp h with h | h
        · exact .inl h
        · exact .inr (List.mem_singleton.mp h ▸ List.mem_cons_self ..)
    · exact .inr (List.mem_cons_of_mem _ h)

/-- A declaration of a property of the class `c` is written in the class-like `t`: in the
class itself, or in a trait that it uses, directly or not. -/
inductive World.Written (w : World) (d : PropertyDeclaration) :
    ReflectedClass → ReflectedClass → Prop
  | here {c : ReflectedClass} {n : Sited} {ds : List PropertyDeclaration}
      (hn : n ∈ c.propertyNodes) (h : PropertyDeclaration.ofNode c.source n = .ok ds)
      (hd : d ∈ ds) : Written w d c c
  | used {c trait t : ReflectedClass} {name : String} (hname : name ∈ c.traitNames)
      (hans : w.answer name = .ok trait) (h : Written w d trait t) : Written w d c t

section

variable {w : World} {c t : ReflectedClass} {d : PropertyDeclaration} {e : Expression}

/-- The default of a declaration is an expression in the source in which it is written. -/
theorem World.Written.source (h : w.Written d c t) (he : d.default = some e) :
    e.source = t.source := by
  induction h with
  | here _ h hd => exact PropertyDeclaration.ofNode_source _ _ _ h _ hd e he
  | used _ _ _ ih => exact ih

/-- What the declaration of a class declares is written in it. -/
theorem ReflectedClass.ownDeclarations_written (c : ReflectedClass) :
    c.ownDeclarations.Yields fun ds => ∀ d ∈ ds, w.Written d c c := by
  refine yields_foldlM (fun d hd => absurd hd List.not_mem_nil) fun acc n hn hacc => ?_
  cases hnode : PropertyDeclaration.ofNode c.source n with
  | error f => exact yields_error
  | ok more =>
    refine yields_ok fun d hd => ?_
    rcases mem_of_addDeclarations hd with hd | hd
    · exact hacc d hd
    · exact .here hn hnode hd

/-- All properties that a class has of its own are written somewhere. -/
theorem World.gathered_written (n : Nat) (c : ReflectedClass) :
    (w.gathered n c).Yields fun ds => ∀ d ∈ ds, ∃ t, w.Written d c t := by
  induction n generalizing c with
  | zero => exact yields_error
  | succ n ih =>
    refine Yields.bind (P := fun ds => ∀ d ∈ ds, w.Written d c c) c.ownDeclarations_written
      fun own hown => ?_
    refine yields_foldlM (fun d hd => ⟨c, hown d hd⟩) fun acc name hname hacc => ?_
    unfold World.addTrait
    cases hans : w.answer name with
    | error f => exact yields_error
    | ok trait =>
      rw [ok_bind]
      refine Yields.bind (ih trait) fun more hmore => yields_ok fun d hd => ?_
      rcases ReflectedClass.mem_of_addDeclarations hd with hd | hd
      · exact hacc d hd
      · obtain ⟨t, ht⟩ := hmore d hd
        exact ⟨t, .used hname hans ht⟩

theorem World.Gathers.exists_written {ds : List PropertyDeclaration} (h : w.Gathers c (.ok ds))
    (hd : d ∈ ds) : ∃ t, w.Written d c t := by
  obtain ⟨n, hn⟩ := h
  exact World.gathered_written n c ds (hn n (Nat.le_refl n)) d hd

end

end StaticReflection
