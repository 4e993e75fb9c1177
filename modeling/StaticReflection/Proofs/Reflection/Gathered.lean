import StaticReflection.Proofs.Reflection.Sources
import StaticReflection.Proofs.Value.Outcome

/-!
# The properties of a class and its traits, without a store

`World.gathered` gathers the properties that a class has of its own from its
declaration and its traits, with fuel for the traits of traits and no record of which
classes it came through. More fuel changes nothing but a run out of fuel
(`gathered_of_le`), so every class has one outcome that it keeps from some fuel on:

> `World.Gathers c o`: with enough fuel the properties of `c` are `o`, for good.

That outcome is a failure without end exactly when a trait is used by itself on the
way, whatever class the gathering began with.
-/

namespace StaticReflection

open Reflector

namespace ReflectedClass

/-- A list of declarations with one more, unless its name is there already. -/
def addDeclaration (ds : List PropertyDeclaration) (d : PropertyDeclaration) :
    List PropertyDeclaration := if declares ds d.name then ds else ds ++ [d]

/-- The properties that the declaration of a class itself declares. -/
def ownDeclarations (c : ReflectedClass) : Outcome (List PropertyDeclaration) :=
  c.propertyNodes.foldlM (fun acc n => do
    return (← PropertyDeclaration.ofNode c.source n).foldl addDeclaration acc) []

end ReflectedClass

namespace World

variable (w : World)

/-- The declarations with those of a trait, given how to find its properties. -/
def addTrait (properties : ReflectedClass → Outcome (List PropertyDeclaration))
    (acc : List PropertyDeclaration) (name : String) : Outcome (List PropertyDeclaration) := do
  let used ← w.answer name
  return merge acc (← properties used)

/-- The properties that a class has of its own, as far as the fuel goes. -/
def gathered : Nat → ReflectedClass → Outcome (List PropertyDeclaration)
  | 0, _ => Outcome.endless
  | fuel + 1, c => do
    let own ← c.ownDeclarations
    c.traitNames.foldlM (w.addTrait (gathered fuel)) own

variable {w}

/-- What a trait adds is the same for two ways to find its properties that agree on it. -/
theorem addTrait_congr {p p' : ReflectedClass → Outcome (List PropertyDeclaration)}
    {acc : List PropertyDeclaration} {name : String}
    (h : ∀ c, p c ≠ Outcome.endless → p' c = p c)
    (hne : w.addTrait p acc name ≠ Outcome.endless) :
    w.addTrait p' acc name = w.addTrait p acc name := by
  unfold addTrait at hne ⊢
  cases hans : w.answer name with
  | error f => rw [Outcome.error_bind, Outcome.error_bind]
  | ok used =>
    rw [hans, Outcome.ok_bind] at hne
    rw [Outcome.ok_bind, Outcome.ok_bind, h used (Outcome.ne_endless_of_bind hne)]

theorem addTraits_congr {p p' : ReflectedClass → Outcome (List PropertyDeclaration)}
    (h : ∀ c, p c ≠ Outcome.endless → p' c = p c) (names : List String)
    (acc : List PropertyDeclaration) (hne : names.foldlM (w.addTrait p) acc ≠ Outcome.endless) :
    names.foldlM (w.addTrait p') acc = names.foldlM (w.addTrait p) acc := by
  induction names generalizing acc with
  | nil => rw [List.foldlM_nil, List.foldlM_nil]
  | cons name rest ih =>
    rw [List.foldlM_cons] at hne ⊢
    rw [List.foldlM_cons]
    rw [addTrait_congr h (Outcome.ne_endless_of_bind hne)]
    cases ho : w.addTrait p acc name with
    | error f => rw [Outcome.error_bind, Outcome.error_bind]
    | ok b =>
      rw [ho, Outcome.ok_bind] at hne
      rw [Outcome.ok_bind, Outcome.ok_bind]
      exact ih b hne

/-- More fuel changes nothing but a run out of fuel. -/
theorem gathered_succ {n : Nat} {c : ReflectedClass} (h : w.gathered n c ≠ Outcome.endless) :
    w.gathered (n + 1) c = w.gathered n c := by
  induction n generalizing c with
  | zero => exact absurd rfl h
  | succ n ih =>
    unfold gathered at h ⊢
    cases hown : c.ownDeclarations with
    | error f => rw [Outcome.error_bind, Outcome.error_bind]
    | ok own =>
      rw [hown, Outcome.ok_bind] at h
      rw [Outcome.ok_bind, Outcome.ok_bind]
      exact addTraits_congr (fun d hd => ih hd) c.traitNames own h

theorem gathered_of_le {n m : Nat} {c : ReflectedClass} (h : w.gathered n c ≠ Outcome.endless)
    (hle : n ≤ m) : w.gathered m c = w.gathered n c := by
  induction hle with
  | refl => rfl
  | step _ ih => rw [gathered_succ (ih ▸ h), ih]

variable (w) in
/-- From some fuel on the properties of a class come to an outcome. -/
def Gathers (c : ReflectedClass) (o : Outcome (List PropertyDeclaration)) : Prop :=
  ∃ n, ∀ m, n ≤ m → w.gathered m c = o

theorem Gathers.of_gathered {n : Nat} {c : ReflectedClass} {o : Outcome (List PropertyDeclaration)}
    (h : w.gathered n c = o) (ho : o ≠ Outcome.endless) : w.Gathers c o :=
  ⟨n, fun _ hm => (gathered_of_le (h ▸ ho) hm).trans h⟩

theorem Gathers.unique {c : ReflectedClass} {o o' : Outcome (List PropertyDeclaration)}
    (h : w.Gathers c o) (h' : w.Gathers c o') : o = o' := by
  obtain ⟨n, hn⟩ := h
  obtain ⟨m, hm⟩ := h'
  exact (hn _ (Nat.le_max_left n m)).symm.trans (hm _ (Nat.le_max_right n m))

/-- What is gathered with some fuel and not without end is the outcome. -/
theorem Gathers.eq_of_gathered {n : Nat} {c : ReflectedClass}
    {o : Outcome (List PropertyDeclaration)} (h : w.Gathers c o)
    (hne : w.gathered n c ≠ Outcome.endless) : w.gathered n c = o :=
  (Gathers.of_gathered rfl hne).unique h

theorem exists_gathers (c : ReflectedClass) : ∃ o, w.Gathers c o := by
  by_cases h : ∃ n, w.gathered n c ≠ Outcome.endless
  · obtain ⟨n, hn⟩ := h
    exact ⟨_, .of_gathered rfl hn⟩
  · -- however much fuel there is, it runs out
    refine ⟨Outcome.endless, 0, fun m _ => ?_⟩
    exact Classical.byContradiction fun hm => h ⟨m, hm⟩

end World

end StaticReflection
