import StaticReflection.Folding.Fold

/-!
# Outcomes of steps, and steps that agree

A step of folding is an outcome and the state after it. `Folding.outcome` and
`Folding.after` name the two, and the lemmas below say what sequencing and catching
make of them, so that no later proof opens the monad.

> `Agree I good q q'`: from states related by `I` both steps come to the same
> outcome, which is `good`, and the states after them are related by `I` again.

With two different stores this says that a step does not depend on what the stores
differ in. `Comes I q o J` is the same for a single step whose outcome `o` is known:
from every state with `I` it comes to `o`, and to a state with `J`.
-/

namespace StaticReflection.Folding

variable {σ α β : Type}

/-- What a step comes to from a state. -/
def outcome (q : Folding σ α) (s : σ) : Outcome α := (q.run s).1

/-- The state after a step. -/
def after (q : Folding σ α) (s : σ) : σ := (q.run s).2

@[simp] theorem outcome_pure (a : α) (s : σ) : outcome (pure a : Folding σ α) s = .ok a := rfl

@[simp] theorem after_pure (a : α) (s : σ) : after (pure a : Folding σ α) s = s := rfl

@[simp] theorem outcome_throw (f : Failure) (s : σ) :
    outcome (throw f : Folding σ α) s = .error f := rfl

@[simp] theorem after_throw (f : Failure) (s : σ) : after (throw f : Folding σ α) s = s := rfl

@[simp] theorem outcome_lift (o : Outcome α) (s : σ) : outcome (lift o) s = o := rfl

@[simp] theorem after_lift (o : Outcome α) (s : σ) : after (lift o) s = s := rfl

@[simp] theorem outcome_get (s : σ) : outcome (get : Folding σ σ) s = .ok s := rfl

@[simp] theorem after_get (s : σ) : after (get : Folding σ σ) s = s := rfl

@[simp] theorem outcome_modify (g : σ → σ) (s : σ) :
    outcome (modify g : Folding σ PUnit) s = .ok ⟨⟩ := rfl

@[simp] theorem after_modify (g : σ → σ) (s : σ) :
    after (modify g : Folding σ PUnit) s = g s := rfl

/-! ## Sequencing and catching -/

theorem outcome_bind (q : Folding σ α) (g : α → Folding σ β) (s : σ) :
    outcome (q >>= g) s = match outcome q s with
      | .ok a => outcome (g a) (after q s)
      | .error f => .error f := by
  unfold outcome after
  simp only [bind, ExceptT.bind, ExceptT.mk, StateT.bind, ExceptT.run, ExceptT.bindCont]
  rcases q s with ⟨o, t⟩
  cases o <;> rfl

theorem after_bind (q : Folding σ α) (g : α → Folding σ β) (s : σ) :
    after (q >>= g) s = match outcome q s with
      | .ok a => after (g a) (after q s)
      | .error _ => after q s := by
  unfold outcome after
  simp only [bind, ExceptT.bind, ExceptT.mk, StateT.bind, ExceptT.run, ExceptT.bindCont]
  rcases q s with ⟨o, t⟩
  cases o <;> rfl

theorem outcome_tryCatch (q : Folding σ α) (g : Failure → Folding σ α) (s : σ) :
    outcome (tryCatch q g) s = match outcome q s with
      | .ok a => .ok a
      | .error f => outcome (g f) (after q s) := by
  unfold outcome after
  simp only [tryCatch, tryCatchThe, MonadExceptOf.tryCatch, ExceptT.tryCatch, ExceptT.mk,
    ExceptT.run, bind, StateT.bind]
  rcases q s with ⟨o, t⟩
  cases o <;> rfl

theorem after_tryCatch (q : Folding σ α) (g : Failure → Folding σ α) (s : σ) :
    after (tryCatch q g) s = match outcome q s with
      | .ok _ => after q s
      | .error f => after (g f) (after q s) := by
  unfold outcome after
  simp only [tryCatch, tryCatchThe, MonadExceptOf.tryCatch, ExceptT.tryCatch, ExceptT.mk,
    ExceptT.run, bind, StateT.bind]
  rcases q s with ⟨o, t⟩
  cases o <;> rfl

theorem run_finally (q : Folding σ α) (t : σ → σ) (s : σ) :
    (tryFinally q (modify t)).run s = ((q.run s).1, t (q.run s).2) := by
  simp only [tryFinally, tryFinally', ExceptT.run, ExceptT.mk, bind, StateT.bind, Functor.map,
    ExceptT.map]
  rcases q s with ⟨o, u⟩
  cases o <;> rfl

/-- A last change of the state leaves the outcome alone. -/
theorem outcome_finally (q : Folding σ α) (t : σ → σ) (s : σ) :
    outcome (tryFinally q (modify t)) s = outcome q s := by
  unfold outcome
  rw [run_finally]

/-- A last change of the state is made after a value and after a failure. -/
theorem after_finally (q : Folding σ α) (t : σ → σ) (s : σ) :
    after (tryFinally q (modify t)) s = t (after q s) := by
  unfold after
  rw [run_finally]

/-- What follows a step that has a value. -/
theorem outcome_bind_ok {q : Folding σ α} {g : α → Folding σ β} {s : σ} {a : α}
    (h : outcome q s = .ok a) : outcome (q >>= g) s = outcome (g a) (after q s) := by
  rw [outcome_bind, h]

theorem after_bind_ok {q : Folding σ α} {g : α → Folding σ β} {s : σ} {a : α}
    (h : outcome q s = .ok a) : after (q >>= g) s = after (g a) (after q s) := by
  rw [after_bind, h]

/-- A failure is the failure of everything that would follow. -/
theorem outcome_bind_error {q : Folding σ α} {g : α → Folding σ β} {s : σ} {f : Failure}
    (h : outcome q s = .error f) : outcome (q >>= g) s = .error f := by
  rw [outcome_bind, h]

theorem after_bind_error {q : Folding σ α} {g : α → Folding σ β} {s : σ} {f : Failure}
    (h : outcome q s = .error f) : after (q >>= g) s = after q s := by
  rw [after_bind, h]

/-- A sequence that has a value went through a value of its first part. -/
theorem exists_of_bind_ok {q : Folding σ α} {g : α → Folding σ β} {s : σ} {b : β}
    (h : outcome (q >>= g) s = .ok b) :
    ∃ a, outcome q s = .ok a ∧ outcome (g a) (after q s) = .ok b := by
  rw [outcome_bind] at h
  cases hq : outcome q s with
  | ok a => rw [hq] at h; exact ⟨a, rfl, h⟩
  | error f => rw [hq] at h; cases h

/-- A sequence that fails does so in its first part, or after it. -/
theorem of_bind_error {q : Folding σ α} {g : α → Folding σ β} {s : σ} {f : Failure}
    (h : outcome (q >>= g) s = .error f) :
    outcome q s = .error f
      ∨ ∃ a, outcome q s = .ok a ∧ outcome (g a) (after q s) = .error f := by
  rw [outcome_bind] at h
  cases hq : outcome q s with
  | ok a => rw [hq] at h; exact .inr ⟨a, rfl, h⟩
  | error g => rw [hq] at h; cases h; exact .inl rfl

/-! ## Steps that agree -/

/-- From related states two steps come to one good outcome, and to related states. -/
def AgreeAt (I : σ → σ → Prop) (good : Outcome α → Prop) (q q' : Folding σ α) (s s' : σ) : Prop :=
  outcome q s = outcome q' s' ∧ good (outcome q s) ∧ I (after q s) (after q' s')

/-- Two steps agree from all related states. -/
def Agree (I : σ → σ → Prop) (good : Outcome α → Prop) (q q' : Folding σ α) : Prop :=
  ∀ s s', I s s' → AgreeAt I good q q' s s'

section

variable {I : σ → σ → Prop} {good : Outcome α → Prop} {fine : Outcome β → Prop}
variable {q q' : Folding σ α} {g g' : α → Folding σ β}

theorem Agree.mono {other : Outcome α → Prop} (h : Agree I good q q')
    (himp : ∀ o, good o → other o) : Agree I other q q' := fun s s' hs =>
  ⟨(h s s' hs).1, himp _ (h s s' hs).2.1, (h s s' hs).2.2⟩

theorem Agree.pure {a : α} (h : good (.ok a)) : Agree I good (pure a) (pure a) :=
  fun _ _ hs => ⟨rfl, h, hs⟩

theorem Agree.throw {f : Failure} (h : good (.error f)) : Agree I good (throw f) (throw f) :=
  fun _ _ hs => ⟨rfl, h, hs⟩

theorem Agree.lift {o : Outcome α} (h : good o) : Agree I good (lift o) (lift o) :=
  fun _ _ hs => ⟨rfl, h, hs⟩

/-- Sequences agree if their first parts do, and what follows each of its values. -/
theorem AgreeAt.bind {s s' : σ} (h : AgreeAt I good q q' s s')
    (hok : ∀ a, good (.ok a) → Agree I fine (g a) (g' a))
    (herror : ∀ f, good (.error f) → fine (.error f)) :
    AgreeAt I fine (q >>= g) (q' >>= g') s s' := by
  obtain ⟨he, hg, hI⟩ := h
  unfold AgreeAt
  rw [outcome_bind, after_bind, outcome_bind, after_bind, ← he]
  cases hq : outcome q s with
  | ok a => exact hok a (hq ▸ hg) _ _ hI
  | error f => exact ⟨rfl, herror f (hq ▸ hg), hI⟩

theorem Agree.bind (h : Agree I good q q')
    (hok : ∀ a, good (.ok a) → Agree I fine (g a) (g' a))
    (herror : ∀ f, good (.error f) → fine (.error f)) :
    Agree I fine (q >>= g) (q' >>= g') := fun s s' hs => (h s s' hs).bind hok herror

/-- What would follow a failure makes no difference. -/
theorem Agree.throw_bind {f : Failure} (h : fine (.error f)) :
    Agree I fine (MonadExcept.throw f >>= g) (MonadExcept.throw f >>= g') := fun _ _ hs =>
  ⟨rfl, h, hs⟩

/-- Steps that begin by looking at the state. -/
theorem Agree.get_bind {k k' : σ → Folding σ α}
    (h : ∀ s s', I s s' → AgreeAt I good (k s) (k' s') s s') :
    Agree I good (get >>= k) (get >>= k') := fun s s' hs => by
  unfold AgreeAt
  rw [outcome_bind_ok (outcome_get s), after_bind_ok (outcome_get s),
    outcome_bind_ok (outcome_get s'), after_bind_ok (outcome_get s')]
  exact h s s' hs

theorem Agree.tryCatch {r r' : Failure → Folding σ α} {middle : Outcome α → Prop}
    (h : Agree I middle q q') (hok : ∀ a, middle (.ok a) → good (.ok a))
    (herror : ∀ f, middle (.error f) → Agree I good (r f) (r' f)) :
    Agree I good (tryCatch q r) (tryCatch q' r') := fun s s' hs => by
  obtain ⟨he, hg, hI⟩ := h s s' hs
  unfold AgreeAt
  rw [outcome_tryCatch, after_tryCatch, outcome_tryCatch, after_tryCatch, ← he]
  cases hq : outcome q s with
  | ok a => exact ⟨rfl, hok a (hq ▸ hg), hI⟩
  | error f => exact herror f (hq ▸ hg) _ _ hI

end

/-! ## What steps give -/

/-- A step whose value, if it has one, has a property, whatever the state. -/
def Gives (P : α → Prop) (q : Folding σ α) : Prop := ∀ s a, outcome q s = .ok a → P a

section

variable {P : α → Prop} {Q : β → Prop} {q : Folding σ α} {g : α → Folding σ β}

theorem Gives.pure {a : α} (h : P a) : Gives P (pure a : Folding σ α) := fun _ _ he => by
  cases he
  exact h

theorem Gives.bind (h : Gives P q) (hg : ∀ a, P a → Gives Q (g a)) : Gives Q (q >>= g) :=
  fun s b hb => by
    obtain ⟨a, ha, hga⟩ := exists_of_bind_ok hb
    exact hg a (h s a ha) _ b hga

/-- What a sequence gives does not depend on its first part if all that follows gives it. -/
theorem Gives.of_bind (hg : ∀ a, Gives Q (g a)) : Gives Q (q >>= g) := fun s b hb => by
  obtain ⟨a, _, hga⟩ := exists_of_bind_ok hb
  exact hg a _ b hga

theorem Gives.foldlM {γ : Type} {step : α → γ → Folding σ α} {xs : List γ} {a : α}
    (h : ∀ b x, P b → Gives P (step b x)) (ha : P a) : Gives P (xs.foldlM step a) := by
  induction xs generalizing a with
  | nil => exact .pure ha
  | cons x xs ih =>
    rw [List.foldlM_cons]
    exact (h a x ha).bind fun b hb => ih hb

end

/-! ## What steps preserve -/

/-- A step after which a property of the state holds if it held before. -/
def Preserves (P : σ → Prop) (q : Folding σ α) : Prop := ∀ s, P s → P (after q s)

section

variable {P : σ → Prop} {q : Folding σ α} {g : α → Folding σ β}

/-- A step preserves a property if it agrees with itself on the states that have it. -/
theorem preserves_iff_agree :
    Preserves P q ↔ Agree (fun s s' => s' = s ∧ P s) (fun _ => True) q q := by
  constructor
  · rintro h _ s ⟨rfl, hs⟩
    exact ⟨rfl, trivial, rfl, h s hs⟩
  · exact fun h s hs => (h s s ⟨rfl, hs⟩).2.2.2

theorem Preserves.pure {a : α} : Preserves P (pure a : Folding σ α) := fun _ hs => hs

theorem Preserves.throw {f : Failure} : Preserves P (throw f : Folding σ α) := fun _ hs => hs

theorem Preserves.modify {t : σ → σ} (h : ∀ s, P s → P (t s)) :
    Preserves P (modify t : Folding σ PUnit) := h

theorem Preserves.bind (h : Preserves P q) (hg : ∀ a, Preserves P (g a)) :
    Preserves P (q >>= g) := fun s hs => by
  rw [after_bind]
  cases outcome q s with
  | ok a => exact hg a _ (h s hs)
  | error f => exact h s hs

theorem Preserves.mapM {γ : Type} {step : γ → Folding σ α} (h : ∀ x, Preserves P (step x))
    (xs : List γ) : Preserves P (xs.mapM step) := by
  induction xs with
  | nil => rw [List.mapM_nil]; exact .pure
  | cons x xs ih =>
    rw [List.mapM_cons]
    exact (h x).bind fun _ => ih.bind fun _ => .pure

end

/-! ## Steps with a known outcome -/

/-- From every state with `I` a step comes to an outcome, and to a state with `J`. -/
def Comes (I : σ → Prop) (q : Folding σ α) (o : Outcome α) (J : σ → Prop) : Prop :=
  ∀ s, I s → outcome q s = o ∧ J (after q s)

/-- Two states with an invariant. -/
def Twin (I : σ → Prop) (s s' : σ) : Prop := I s ∧ I s'

section

variable {I J K : σ → Prop} {q : Folding σ α} {g : α → Folding σ β} {a : α} {f : Failure}

theorem Comes.pure : Comes I (pure a : Folding σ α) (.ok a) I := fun _ hs => ⟨rfl, hs⟩

theorem Comes.throw : Comes I (throw f : Folding σ α) (.error f) I := fun _ hs => ⟨rfl, hs⟩

theorem Comes.lift {o : Outcome α} : Comes I (lift o) o I := fun _ hs => ⟨rfl, hs⟩

theorem Comes.modify {t : σ → σ} (h : ∀ s, I s → J (t s)) :
    Comes I (modify t : Folding σ PUnit) (.ok ⟨⟩) J := fun s hs => ⟨rfl, h s hs⟩

/-- What is known of the state before may be more, and what is wanted after it less. -/
theorem Comes.mono {I' J' : σ → Prop} {o : Outcome α} (h : Comes I q o J)
    (hI : ∀ s, I' s → I s) (hJ : ∀ s, J s → J' s) : Comes I' q o J' := fun s hs =>
  ⟨(h s (hI s hs)).1, hJ _ (h s (hI s hs)).2⟩

theorem Comes.run {o : Outcome α} {s : σ} (h : Comes I q o J) (hs : I s) :
    outcome q s = o ∧ J (after q s) := h s hs

theorem Comes.bind_ok {o : Outcome β} (h : Comes I q (.ok a) J) (hg : Comes J (g a) o K) :
    Comes I (q >>= g) o K := fun s hs => by
  obtain ⟨hq, hJ⟩ := h s hs
  rw [outcome_bind_ok hq, after_bind_ok hq]
  exact hg _ hJ

theorem Comes.bind_error (h : Comes I q (.error f) J) : Comes I (q >>= g) (.error f) J :=
  fun s hs => by
    obtain ⟨hq, hJ⟩ := h s hs
    rw [outcome_bind_error hq, after_bind_error hq]
    exact ⟨rfl, hJ⟩

/-- A sequence comes to the sequence of the outcomes. -/
theorem Comes.bind {o : Outcome α} {r : α → Outcome β} (h : Comes I q o I)
    (hg : ∀ a, o = .ok a → Comes I (g a) (r a) I) : Comes I (q >>= g) (o >>= r) I := by
  cases o with
  | ok a => exact h.bind_ok (hg a rfl)
  | error f => exact h.bind_error

/-- A step that begins by looking at the state. -/
theorem Comes.get_bind {k : σ → Folding σ α} {o : Outcome α}
    (h : ∀ s, I s → outcome (k s) s = o ∧ J (after (k s) s)) : Comes I (get >>= k) o J :=
  fun s hs => by
    rw [outcome_bind_ok (outcome_get s), after_bind_ok (outcome_get s)]
    exact h s hs

theorem Comes.tryCatch_ok {r : Failure → Folding σ α} (h : Comes I q (.ok a) J) :
    Comes I (tryCatch q r) (.ok a) J := fun s hs => by
  obtain ⟨hq, hJ⟩ := h s hs
  rw [outcome_tryCatch, after_tryCatch, hq]
  exact ⟨rfl, hJ⟩

theorem Comes.tryCatch_error {r : Failure → Folding σ α} {o : Outcome α}
    (h : Comes I q (.error f) J) (hr : Comes J (r f) o K) : Comes I (tryCatch q r) o K :=
  fun s hs => by
    obtain ⟨hq, hJ⟩ := h s hs
    rw [outcome_tryCatch, after_tryCatch, hq]
    exact hr _ hJ

theorem Comes.foldlM {γ : Type} {step : α → γ → Folding σ α} {r : α → γ → Outcome α}
    {xs : List γ} (h : ∀ a, ∀ x ∈ xs, Comes I (step a x) (r a x) I) (a : α) :
    Comes I (xs.foldlM step a) (xs.foldlM r a) I := by
  induction xs generalizing a with
  | nil => exact .pure
  | cons x xs ih =>
    rw [List.foldlM_cons, List.foldlM_cons]
    exact (h a x (List.mem_cons_self ..)).bind fun b _ =>
      ih (fun c y hy => h c y (List.mem_cons_of_mem _ hy)) b

/-- A step with a known outcome does not depend on the state. -/
theorem Comes.agree {o : Outcome α} {good : Outcome α → Prop} (h : Comes I q o I) (hgood : good o) :
    Agree (Twin I) good q q := fun s s' hs => by
  obtain ⟨hq, hI⟩ := h s hs.1
  obtain ⟨hq', hI'⟩ := h s' hs.2
  exact ⟨hq.trans hq'.symm, hq ▸ hgood, hI, hI'⟩

/-- A step that does not depend on the state comes to what it comes to from any state. -/
theorem Agree.comes {good : Outcome α → Prop} {s : σ} (h : Agree (Twin I) good q q) (hs : I s) :
    Comes I q (outcome q s) I := fun t ht =>
  ⟨(h t s ⟨ht, hs⟩).1, (h t s ⟨ht, hs⟩).2.2.1⟩

theorem Agree.preserves {good : Outcome α → Prop} (h : Agree (Twin I) good q q) :
    ∀ s, I s → I (after q s) := fun s hs => (h s s ⟨hs, hs⟩).2.2.1

/-- After a step with a known outcome, which knows more than is wanted in the end. -/
theorem Comes.bind_agree {g' : α → Folding σ β} {good : Outcome β → Prop}
    (h : Comes I q (.ok a) J) (hg : Agree (Twin J) good (g a) (g' a)) (hJ : ∀ s, J s → I s) :
    Agree (Twin I) good (q >>= g) (q >>= g') := fun s s' hs => by
  obtain ⟨hq, ht⟩ := h s hs.1
  obtain ⟨hq', ht'⟩ := h s' hs.2
  unfold AgreeAt
  rw [outcome_bind_ok hq, after_bind_ok hq, outcome_bind_ok hq', after_bind_ok hq']
  obtain ⟨he, hgood, hafter⟩ := hg _ _ ⟨ht, ht'⟩
  exact ⟨he, hgood, hJ _ hafter.1, hJ _ hafter.2⟩

end

end StaticReflection.Folding
