import StaticReflection.Value.Convert

/-!
# Outcomes by how they fail and what they yield

`Outcome.FailsOnly p` says of which sort the failure of an outcome is, if it is one, and
`Outcome.Yields P` what holds of its value, if it has one. Both go through sequences step
by step. Two sorts of failures matter in what follows: those of expressions that are no
constants, which are reported (a failure that is none of them `Escapes`), and the one of
a query that needs its own answer (`Outcome.endless`).
-/

namespace StaticReflection

/-- A failure other than that of a query that needs its own answer. -/
def Failure.ends : Failure → Bool
  | .fault .endlessRecursion => false
  | _ => true

namespace Outcome

variable {α β : Type} {p : Failure → Bool} {P : α → Prop} {Q : β → Prop}

/-- An outcome is a value, or a failure of some sort. -/
def FailsOnly (p : Failure → Bool) (o : Outcome α) : Prop := ∀ f, o = .error f → p f = true

/-- An outcome is a failure that is not that of an expression that is no constant. -/
def Escapes (o : Outcome α) : Prop := ∃ f, o = .error f ∧ f.isUnfoldable = false

theorem failsOnly_ok {a : α} : FailsOnly p (.ok a) := fun _ h => by cases h

theorem failsOnly_error {f : Failure} (h : p f = true) : FailsOnly p (.error f : Outcome α) :=
  fun _ he => by cases he; exact h

theorem failsOnly_unfoldable {reason : Unfoldable} :
    FailsOnly Failure.isUnfoldable (unfoldable reason : Outcome α) := failsOnly_error rfl

theorem failsOnly_ite {c : Prop} [Decidable c] {o o' : Outcome α} (h : o.FailsOnly p)
    (h' : o'.FailsOnly p) : (if c then o else o').FailsOnly p := by
  split
  · exact h
  · exact h'

theorem FailsOnly.bind {o : Outcome α} {g : α → Outcome β} (h : o.FailsOnly p)
    (hg : ∀ a, (g a).FailsOnly p) : (o >>= g).FailsOnly p := by
  cases o with
  | ok a => exact hg a
  | error f => exact fun _ he => by cases he; exact h f rfl

theorem failsOnly_foldlM {γ : Type} {f : α → γ → Outcome α} (h : ∀ a x, (f a x).FailsOnly p)
    (xs : List γ) (a : α) : (xs.foldlM f a).FailsOnly p := by
  induction xs generalizing a with
  | nil => exact failsOnly_ok
  | cons x xs ih =>
    rw [List.foldlM_cons]
    exact (h a x).bind fun b => ih b

theorem failsOnly_mapM {f : α → Outcome β} (h : ∀ x, (f x).FailsOnly p) (xs : List α) :
    (xs.mapM f).FailsOnly p := by
  induction xs with
  | nil => rw [List.mapM_nil]; exact failsOnly_ok
  | cons x xs ih =>
    rw [List.mapM_cons]
    exact (h x).bind fun _ => ih.bind fun _ => failsOnly_ok

theorem FailsOnly.mono {q : Failure → Bool} {o : Outcome α} (h : o.FailsOnly p)
    (hpq : ∀ f, p f = true → q f = true) : o.FailsOnly q := fun f he => hpq f (h f he)

theorem FailsOnly.not_escapes {o : Outcome α} (h : o.FailsOnly Failure.isUnfoldable) :
    ¬o.Escapes := fun ⟨f, he, hf⟩ => by rw [h f he] at hf; cases hf

theorem not_escapes_ok {a : α} : ¬Escapes (.ok a : Outcome α) := failsOnly_ok.not_escapes

theorem escapes_fault {cause : Fault} : Escapes (fault cause : Outcome α) := ⟨_, rfl, rfl⟩

/-- A sequence escapes if its first part does, and nothing after it does. -/
theorem escapes_bind_iff_left {o : Outcome α} {g : α → Outcome β}
    (hg : ∀ a, o = .ok a → ¬(g a).Escapes) : (o >>= g).Escapes ↔ o.Escapes := by
  cases o with
  | ok a => exact ⟨fun h => (hg a rfl h).elim, fun h => (not_escapes_ok h).elim⟩
  | error f => exact ⟨fun ⟨_, he, hf⟩ => ⟨f, rfl, by cases he; exact hf⟩,
      fun ⟨_, he, hf⟩ => ⟨f, rfl, by cases he; exact hf⟩⟩

/-- A sequence escapes after its first part if that does not. -/
theorem escapes_bind_iff_right {o : Outcome α} {g : α → Outcome β}
    (ho : o.FailsOnly Failure.isUnfoldable) :
    (o >>= g).Escapes ↔ ∃ a, o = .ok a ∧ (g a).Escapes := by
  cases o with
  | ok a => exact ⟨fun h => ⟨a, rfl, h⟩, fun ⟨_, he, h⟩ => by cases he; exact h⟩
  | error f => exact ⟨fun ⟨_, he, hf⟩ => (ho.not_escapes ⟨_, rfl, by cases he; exact hf⟩).elim,
      fun ⟨_, he, _⟩ => by cases he⟩

/-! ## What an outcome yields -/

/-- An outcome is a failure, or a value with a property. -/
def Yields (P : α → Prop) (o : Outcome α) : Prop := ∀ a, o = .ok a → P a

theorem yields_ok {a : α} (h : P a) : Yields P (.ok a) := fun _ he => by cases he; exact h

theorem yields_error {f : Failure} : Yields P (.error f) := fun _ he => by cases he

theorem Yields.bind {o : Outcome α} {g : α → Outcome β} (h : o.Yields P)
    (hg : ∀ a, P a → (g a).Yields Q) : (o >>= g).Yields Q := by
  cases o with
  | ok a => exact hg a (h a rfl)
  | error f => exact yields_error

theorem yields_ite {c : Prop} [Decidable c] {o o' : Outcome α} (h : o.Yields P)
    (h' : o'.Yields P) : (if c then o else o').Yields P := by
  split
  · exact h
  · exact h'

/-- What each step of a fold keeps, its value has. -/
theorem yields_foldlM {γ : Type} {f : α → γ → Outcome α} {xs : List γ} {a : α} (ha : P a)
    (h : ∀ b, ∀ x ∈ xs, P b → (f b x).Yields P) : (xs.foldlM f a).Yields P := by
  induction xs generalizing a with
  | nil => exact yields_ok ha
  | cons x xs ih =>
    rw [List.foldlM_cons]
    exact (h a x (List.mem_cons_self ..) ha).bind fun b hb =>
      ih hb fun c y hy => h c y (List.mem_cons_of_mem _ hy)

theorem yields_mapM {f : α → Outcome β} {xs : List α} (h : ∀ x ∈ xs, (f x).Yields Q) :
    (xs.mapM f).Yields fun ys => ∀ y ∈ ys, Q y := by
  induction xs with
  | nil => rw [List.mapM_nil]; exact yields_ok fun y hy => absurd hy List.not_mem_nil
  | cons x xs ih =>
    rw [List.mapM_cons]
    have hrest := ih fun y hy => h y (List.mem_cons_of_mem _ hy)
    exact (h x (List.mem_cons_self ..)).bind fun y hy => hrest.bind fun ys hys =>
      yields_ok (List.forall_mem_cons.mpr ⟨hy, hys⟩)

/-- A value for each item exists exactly if one for the list does. -/
theorem mapM_ok_iff {f : α → Outcome β} {xs : List α} :
    (∃ ys, xs.mapM f = .ok ys) ↔ ∀ x ∈ xs, ∃ y, f x = .ok y := by
  induction xs with
  | nil => exact ⟨fun _ _ h => (by cases h), fun _ => ⟨[], rfl⟩⟩
  | cons x xs ih =>
    rw [List.mapM_cons, List.forall_mem_cons, ← ih]
    cases f x with
    | error g => exact ⟨fun ⟨_, h⟩ => (by cases h), fun ⟨⟨_, h⟩, _⟩ => (by cases h)⟩
    | ok y =>
      cases xs.mapM f with
      | error g => exact ⟨fun ⟨_, h⟩ => (by cases h), fun ⟨_, _, h⟩ => (by cases h)⟩
      | ok ys => exact ⟨fun _ => ⟨⟨y, rfl⟩, ys, rfl⟩, fun _ => ⟨y :: ys, rfl⟩⟩

/-- There are as many values as items. -/
theorem length_of_mapM {f : α → Outcome β} {xs : List α} {ys : List β} (h : xs.mapM f = .ok ys) :
    ys.length = xs.length := by
  induction xs generalizing ys with
  | nil => cases h; rfl
  | cons x xs ih =>
    rw [List.mapM_cons] at h
    cases hx : f x with
    | error g => rw [hx] at h; cases h
    | ok y =>
      cases hxs : xs.mapM f with
      | error g => rw [hx, hxs] at h; cases h
      | ok rest =>
        rw [hx, hxs] at h
        cases h
        rw [List.length_cons, List.length_cons, ih hxs]

theorem Yields.any (o : Outcome α) : o.Yields fun _ => True := fun _ _ => trivial

/-! ## Without end -/

/-- The failure of a query that needs its own answer. -/
def endless : Outcome α := fault .endlessRecursion

theorem ok_bind (a : α) (g : α → Outcome β) : (Except.ok a >>= g) = g a := rfl

/-- A sequence has a value exactly if its parts have. -/
theorem bind_eq_ok_iff {o : Outcome α} {g : α → Outcome β} {b : β} :
    o >>= g = .ok b ↔ ∃ a, o = .ok a ∧ g a = .ok b := by
  cases o with
  | ok a => exact ⟨fun h => ⟨a, rfl, h⟩, fun ⟨_, ha, h⟩ => by cases ha; exact h⟩
  | error f => exact ⟨fun h => (by cases h), fun ⟨_, ha, _⟩ => (by cases ha)⟩

theorem error_bind (f : Failure) (g : α → Outcome β) :
    (Except.error f >>= g) = Except.error f := rfl

/-- A sequence that ends has a first part that ends. -/
theorem ne_endless_of_bind {o : Outcome α} {g : α → Outcome β} (h : (o >>= g) ≠ endless) :
    o ≠ endless := by
  rintro rfl
  exact h (error_bind _ _)

theorem FailsOnly.ne_endless {o : Outcome α} (h : o.FailsOnly Failure.ends) : o ≠ endless :=
  fun he => by
    have := h _ he
    cases this

end Outcome

end StaticReflection
