import StaticReflection.Proofs.Folding.Plan

/-!
# Which expressions a fold comes to, and why it fails

Not every operand of an expression is folded: `??` and the conditional leave one
out, and a failure ends the fold. `Folder.Operand` is the relation between a node
and the operands that are really folded, each with the state it is folded from;
`Folder.Reaches` goes on with their operands, to any depth.

> `fold_error_iff`: a fold fails if and only if it reaches an expression that
> fails alone, with the same failure.

An expression fails alone (`Folder.FailsAlone`) when its operands have values and
the failure is of its own making: of its literal, of its operator, of an array key,
or of the resolver of class constants.
-/

namespace StaticReflection.Folder

open Folding

variable {σ : Type} (F : Folder σ)

/-- Folding an element of an array from a state folds a node from a state. -/
inductive ElementOperand : Node → σ → Node → σ → Prop
  | spread {e c : Node} {s : σ} (h : e.elementPlan = .spread c) : ElementOperand e s c s
  | key {e k i : Node} {s : σ} (h : e.elementPlan = .keyed k i) : ElementOperand e s k s
  | item {e k i : Node} {s : σ} {v : Value} (h : e.elementPlan = .keyed k i)
      (hk : (F.fold k).outcome s = .ok v) : ElementOperand e s i ((F.fold k).after s)
  | plain {e i : Node} {s : σ} (h : e.elementPlan = .plain i) : ElementOperand e s i s

/-- Folding an expression from a state folds one of its operands from a state. -/
inductive Operand : Node → σ → Node → σ → Prop
  | inner {n c : Node} {s : σ} (h : F.plan n = .inner c) : Operand n s c s
  | unary {n c : Node} {s : σ} {operator : String} (h : F.plan n = .unary operator c) :
      Operand n s c s
  | preferred {n l r : Node} {s : σ} (h : F.plan n = .coalesce l r) : Operand n s l s
  | fallback {n l r : Node} {s : σ} {v : Value} (h : F.plan n = .coalesce l r)
      (hl : (F.fold l).outcome s = .ok v) (hv : v.isNull = true) :
      Operand n s r ((F.fold l).after s)
  | left {n l r : Node} {s : σ} {spelling : String} {operator : BinaryOperator}
      (h : F.plan n = .binary spelling operator l r) : Operand n s l s
  | right {n l r : Node} {s : σ} {v : Value} {spelling : String} {operator : BinaryOperator}
      (h : F.plan n = .binary spelling operator l r) (hl : (F.fold l).outcome s = .ok v) :
      Operand n s r ((F.fold l).after s)
  | condition {n c a : Node} {b : Option Node} {s : σ} (h : F.plan n = .conditional c b a) :
      Operand n s c s
  | body {n c a b : Node} {s : σ} {v : Value} (h : F.plan n = .conditional c (some b) a)
      (hc : (F.fold c).outcome s = .ok v) (hv : v.truthy = true) :
      Operand n s b ((F.fold c).after s)
  | alternative {n c a : Node} {b : Option Node} {s : σ} {v : Value}
      (h : F.plan n = .conditional c b a) (hc : (F.fold c).outcome s = .ok v)
      (hv : ¬v.truthy = true) : Operand n s a ((F.fold c).after s)
  | element {n e c : Node} {before rest : List Node} {s t : σ} {acc : Accumulator}
      (h : F.plan n = .array (before ++ e :: rest))
      (hb : (F.foldElements before Accumulator.empty).outcome s = .ok acc)
      (he : F.ElementOperand e ((F.foldElements before Accumulator.empty).after s) c t) :
      Operand n s c t

/-- Folding an expression from a state comes to fold an expression from a state. -/
inductive Reaches : Node → σ → Node → σ → Prop
  | refl {n : Node} {s : σ} : Reaches n s n s
  | step {n c m : Node} {s t u : σ} (h : F.Operand n s c t) (hr : Reaches c t m u) :
      Reaches n s m u

/-- An element of an array whose operands have values fails. -/
inductive ElementFailsAlone : Node → Accumulator → σ → Failure → Prop
  | lacking {e : Node} {acc : Accumulator} {s : σ} (h : e.elementPlan = .lacking) :
      ElementFailsAlone e acc s (.fault .missingChild)
  | byReference {e : Node} {acc : Accumulator} {s : σ} (h : e.elementPlan = .byReference) :
      ElementFailsAlone e acc s (.unfoldable (.byReference e.kind))
  | spread {e c : Node} {acc : Accumulator} {s : σ} {v : Value} {f : Failure}
      (h : e.elementPlan = .spread c) (hc : (F.fold c).outcome s = .ok v)
      (ho : acc.extend v = .error f) : ElementFailsAlone e acc s f
  | keyed {e k i : Node} {acc : Accumulator} {s : σ} {a v : Value} {f : Failure}
      (h : e.elementPlan = .keyed k i) (hk : (F.fold k).outcome s = .ok a)
      (hi : (F.fold i).outcome ((F.fold k).after s) = .ok v) (ho : acc.set a v = .error f) :
      ElementFailsAlone e acc s f

/-- An expression whose operands have values fails. -/
inductive FailsAlone : Node → σ → Failure → Prop
  | done {n : Node} {s : σ} {f : Failure} (h : F.plan n = .done (.error f)) : FailsAlone n s f
  | lacking {n : Node} {s : σ} (h : F.plan n = .lacking) :
      FailsAlone n s (.fault .missingChild)
  | constant {n : Node} {s : σ} {f : Failure} {scope name : String}
      (h : F.plan n = .constant scope name) (ho : (F.resolve n scope name).outcome s = .error f) :
      FailsAlone n s f
  | unary {n c : Node} {s : σ} {v : Value} {f : Failure} {operator : String}
      (h : F.plan n = .unary operator c) (hc : (F.fold c).outcome s = .ok v)
      (ho : applyUnary operator n.kind v = .error f) : FailsAlone n s f
  | binary {n l r : Node} {s : σ} {a b : Value} {f : Failure} {spelling : String}
      {operator : BinaryOperator} (h : F.plan n = .binary spelling operator l r)
      (hl : (F.fold l).outcome s = .ok a)
      (hr : (F.fold r).outcome ((F.fold l).after s) = .ok b)
      (ho : applyBinary spelling n.kind operator a b = .error f) : FailsAlone n s f
  | element {n e : Node} {before rest : List Node} {s : σ} {acc : Accumulator} {f : Failure}
      (h : F.plan n = .array (before ++ e :: rest))
      (hb : (F.foldElements before Accumulator.empty).outcome s = .ok acc)
      (he : F.ElementFailsAlone e acc ((F.foldElements before Accumulator.empty).after s) f) :
      FailsAlone n s f

variable {F}

theorem Reaches.trans {n m k : Node} {s t u : σ} (h : F.Reaches n s m t)
    (h' : F.Reaches m t k u) : F.Reaches n s k u := by
  induction h with
  | refl => exact h'
  | step ho _ ih => exact .step ho (ih h')

theorem Operand.reaches {n c : Node} {s t : σ} (h : F.Operand n s c t) : F.Reaches n s c t :=
  .step h .refl

theorem ElementOperand.mem_operands {e c : Node} {s t : σ} (h : F.ElementOperand e s c t) :
    c ∈ e.elementPlan.operands := by
  cases h with
  | spread h => rw [h]; exact List.mem_singleton.mpr rfl
  | key h => rw [h]; exact List.mem_cons_self ..
  | item h _ => rw [h]; exact List.mem_cons_of_mem _ (List.mem_singleton.mpr rfl)
  | plain h => rw [h]; exact List.mem_singleton.mpr rfl

/-- What is folded as an operand is one that the plan names. -/
theorem Operand.mem_operands {n c : Node} {s t : σ} (h : F.Operand n s c t) :
    c ∈ (F.plan n).operands := by
  have second {a b : Node} : b ∈ [a, b] := List.mem_cons_of_mem _ (List.mem_singleton.mpr rfl)
  cases h with
  | inner h => rw [h]; exact List.mem_singleton.mpr rfl
  | unary h => rw [h]; exact List.mem_singleton.mpr rfl
  | preferred h => rw [h]; exact List.mem_cons_self ..
  | fallback h _ _ => rw [h]; exact second
  | left h => rw [h]; exact List.mem_cons_self ..
  | right h _ => rw [h]; exact second
  | condition h => rw [h]; exact List.mem_cons_self ..
  | body h _ _ => rw [h]; exact List.mem_cons_of_mem _ (second)
  | alternative h _ _ => rw [h]; exact List.mem_cons_of_mem _ (List.mem_cons_self ..)
  | element h _ he =>
    rw [h]
    exact List.mem_flatMap.mpr ⟨_, List.mem_append_right _ (List.mem_cons_self ..),
      he.mem_operands⟩

theorem Operand.size_lt {n c : Node} {s t : σ} (h : F.Operand n s c t) : c.size < n.size :=
  size_of_plan h.mem_operands

/-! ## Elements of arrays -/

theorem foldElements_ok_append {before more : List Node} {acc : Accumulator} {s : σ}
    {start : Accumulator} (h : (F.foldElements before start).outcome s = .ok acc) :
    (F.foldElements (before ++ more) start).outcome s
      = (F.foldElements more acc).outcome ((F.foldElements before start).after s) := by
  rw [foldElements_append]
  exact outcome_bind_ok h

/-- Elements that fail do so at one of them, the ones before it being in place. -/
theorem exists_of_foldElements_error {es : List Node} {start : Accumulator} {s : σ} {f : Failure}
    (h : (F.foldElements es start).outcome s = .error f) :
    ∃ before e rest acc, es = before ++ e :: rest
      ∧ (F.foldElements before start).outcome s = .ok acc
      ∧ (F.foldElement acc e).outcome ((F.foldElements before start).after s) = .error f := by
  induction es generalizing start s with
  | nil => rw [foldElements_nil] at h; cases h
  | cons e es ih =>
    rw [foldElements_cons] at h
    rcases of_bind_error h with h | ⟨acc, hok, h⟩
    · -- the first element fails, with none before it
      refine ⟨[], e, es, start, rfl, ?_, ?_⟩ <;> rw [foldElements_nil]
      · rfl
      · exact h
    · obtain ⟨before, d, rest, final, hes, hb, hf⟩ := ih h
      refine ⟨e :: before, d, rest, final, by rw [hes, List.cons_append], ?_, ?_⟩
      · rw [foldElements_cons, outcome_bind_ok hok, hb]
      · rw [foldElements_cons, after_bind_ok hok, hf]

theorem foldElements_error {before rest : List Node} {e : Node} {start acc : Accumulator} {s : σ}
    {f : Failure} (hb : (F.foldElements before start).outcome s = .ok acc)
    (he : (F.foldElement acc e).outcome ((F.foldElements before start).after s) = .error f) :
    (F.foldElements (before ++ e :: rest) start).outcome s = .error f := by
  rw [foldElements_ok_append hb, foldElements_cons]
  exact outcome_bind_error he

/-- An element fails alone, or with one of its operands. -/
theorem foldElement_error_cases {e : Node} {acc : Accumulator} {s : σ} {f : Failure}
    (h : (F.foldElement acc e).outcome s = .error f) :
    F.ElementFailsAlone e acc s f
      ∨ ∃ c t, F.ElementOperand e s c t ∧ (F.fold c).outcome t = .error f := by
  unfold foldElement at h
  cases he : e.elementPlan with
  | lacking => rw [he] at h; cases h; exact .inl (.lacking he)
  | byReference => rw [he] at h; cases h; exact .inl (.byReference he)
  | spread c =>
    rw [he] at h
    rcases of_bind_error h with h | ⟨v, hc, h⟩
    · exact .inr ⟨c, s, .spread he, h⟩
    · exact .inl (.spread he hc h)
  | plain item =>
    rw [he] at h
    rcases of_bind_error h with h | ⟨v, _, h⟩
    · exact .inr ⟨item, s, .plain he, h⟩
    · cases h
  | keyed key item =>
    rw [he] at h
    rcases of_bind_error h with h | ⟨k, hk, h⟩
    · exact .inr ⟨key, s, .key he, h⟩
    · rcases of_bind_error h with h | ⟨v, hi, h⟩
      · exact .inr ⟨item, _, .item he hk, h⟩
      · exact .inl (.keyed he hk hi h)

theorem ElementFailsAlone.error {e : Node} {acc : Accumulator} {s : σ} {f : Failure}
    (h : F.ElementFailsAlone e acc s f) : (F.foldElement acc e).outcome s = .error f := by
  unfold foldElement
  cases h with
  | lacking h => rw [h]; rfl
  | byReference h => rw [h]; rfl
  | spread h hc ho => rw [h]; exact (outcome_bind_ok hc).trans ho
  | keyed h hk hi ho => rw [h]; exact (outcome_bind_ok hk).trans ((outcome_bind_ok hi).trans ho)

theorem ElementOperand.error {e c : Node} {acc : Accumulator} {s t : σ} {f : Failure}
    (h : F.ElementOperand e s c t) (hf : (F.fold c).outcome t = .error f) :
    (F.foldElement acc e).outcome s = .error f := by
  unfold foldElement
  cases h with
  | spread h => rw [h]; exact outcome_bind_error hf
  | key h => rw [h]; exact outcome_bind_error hf
  | item h hk => rw [h]; exact (outcome_bind_ok hk).trans (outcome_bind_error hf)
  | plain h => rw [h]; exact outcome_bind_error hf

/-! ## Expressions -/

/-- An expression fails alone, or with one of its operands. -/
theorem fold_error_cases {n : Node} {s : σ} {f : Failure} (h : (F.fold n).outcome s = .error f) :
    F.FailsAlone n s f ∨ ∃ c t, F.Operand n s c t ∧ (F.fold c).outcome t = .error f := by
  rw [F.fold_eq] at h
  cases hp : F.plan n with
  | done o => rw [hp] at h; cases (show o = .error f from h); exact .inl (.done hp)
  | lacking => rw [hp] at h; cases h; exact .inl (.lacking hp)
  | constant scope name => rw [hp] at h; exact .inl (.constant hp h)
  | inner c => rw [hp] at h; exact .inr ⟨c, s, .inner hp, h⟩
  | unary operator c =>
    rw [hp] at h
    rcases of_bind_error h with h | ⟨v, hc, h⟩
    · exact .inr ⟨c, s, .unary hp, h⟩
    · exact .inl (.unary hp hc h)
  | coalesce left right =>
    rw [hp] at h
    rcases of_bind_error h with h | ⟨v, hl, h⟩
    · exact .inr ⟨left, s, .preferred hp, h⟩
    · -- the right operand is folded only if the left one is null
      split at h
      next hv => exact .inr ⟨right, _, .fallback hp hl hv, h⟩
      next => cases h
  | binary spelling operator left right =>
    rw [hp] at h
    rcases of_bind_error h with h | ⟨a, hl, h⟩
    · exact .inr ⟨left, s, .left hp, h⟩
    · rcases of_bind_error h with h | ⟨b, hr, h⟩
      · exact .inr ⟨right, _, .right hp hl, h⟩
      · exact .inl (.binary hp hl hr h)
  | conditional condition body alternative =>
    rw [hp] at h
    rcases of_bind_error h with h | ⟨v, hc, h⟩
    · exact .inr ⟨condition, s, .condition hp, h⟩
    · split at h
      next hv =>
        cases body with
        | none => cases h
        | some body => exact .inr ⟨body, _, .body hp hc hv, h⟩
      next hv => exact .inr ⟨alternative, _, .alternative hp hc hv, h⟩
  | array elements =>
    rw [hp] at h
    rcases of_bind_error h with h | ⟨acc, _, h⟩
    · obtain ⟨before, e, rest, acc, hes, hb, he⟩ := exists_of_foldElements_error h
      rw [hes] at hp
      rcases foldElement_error_cases he with he | ⟨c, t, ho, hc⟩
      · exact .inl (.element hp hb he)
      · exact .inr ⟨c, t, .element hp hb ho, hc⟩
    · cases h

theorem FailsAlone.error {n : Node} {s : σ} {f : Failure} (h : F.FailsAlone n s f) :
    (F.fold n).outcome s = .error f := by
  rw [F.fold_eq]
  cases h with
  | done h => rw [h]; rfl
  | lacking h => rw [h]; rfl
  | constant h ho => rw [h]; exact ho
  | unary h hc ho => rw [h]; exact (outcome_bind_ok hc).trans ho
  | binary h hl hr ho => rw [h]; exact (outcome_bind_ok hl).trans ((outcome_bind_ok hr).trans ho)
  | element h hb he => rw [h]; exact outcome_bind_error (foldElements_error hb he.error)

/-- The failure of an operand is that of the expression. -/
theorem Operand.error {n c : Node} {s t : σ} {f : Failure} (h : F.Operand n s c t)
    (hf : (F.fold c).outcome t = .error f) : (F.fold n).outcome s = .error f := by
  rw [F.fold_eq]
  cases h with
  | inner h => rw [h]; exact hf
  | unary h => rw [h]; exact outcome_bind_error hf
  | preferred h => rw [h]; exact outcome_bind_error hf
  | fallback h hl hv =>
    rw [h]
    refine (outcome_bind_ok hl).trans ?_
    rw [if_pos hv]
    exact hf
  | left h => rw [h]; exact outcome_bind_error hf
  | right h hl => rw [h]; exact (outcome_bind_ok hl).trans (outcome_bind_error hf)
  | condition h => rw [h]; exact outcome_bind_error hf
  | body h hc hv =>
    rw [h]
    refine (outcome_bind_ok hc).trans ?_
    rw [if_pos hv]
    exact hf
  | alternative h hc hv =>
    rw [h]
    refine (outcome_bind_ok hc).trans ?_
    rw [if_neg hv]
    exact hf
  | element h hb he => rw [h]; exact outcome_bind_error (foldElements_error hb (he.error hf))

theorem Reaches.error {n m : Node} {s t : σ} {f : Failure} (h : F.Reaches n s m t)
    (hf : (F.fold m).outcome t = .error f) : (F.fold n).outcome s = .error f := by
  induction h with
  | refl => exact hf
  | step ho _ ih => exact ho.error (ih hf)

/-- A fold fails if and only if it reaches an expression that fails alone, with the
same failure. -/
theorem fold_error_iff {n : Node} {s : σ} {f : Failure} :
    (F.fold n).outcome s = .error f ↔ ∃ m t, F.Reaches n s m t ∧ F.FailsAlone m t f := by
  constructor
  · intro h
    -- on the size of the node, since operands are smaller
    induction hsize : n.size using Nat.strongRecOn generalizing n s with
    | ind k ih =>
      rcases fold_error_cases h with h | ⟨c, t, ho, hc⟩
      · exact ⟨n, s, .refl, h⟩
      · obtain ⟨m, u, hr, hm⟩ := ih c.size (hsize ▸ ho.size_lt) hc rfl
        exact ⟨m, u, .step ho hr, hm⟩
  · rintro ⟨m, t, hr, hm⟩
    exact hr.error hm.error

/-! ## Where values come from -/

variable (F)

/-- How the value of an expression comes from those of its operands. -/
inductive Gives : Node → σ → Value → Prop
  | done {n : Node} {s : σ} {v : Value} (h : F.plan n = .done (.ok v)) : Gives n s v
  | constant {n : Node} {s : σ} {v : Value} {scope name : String}
      (h : F.plan n = .constant scope name) (ho : (F.resolve n scope name).outcome s = .ok v) :
      Gives n s v
  /-- The value is that of an operand. -/
  | operand {n c : Node} {s t : σ} {v : Value} (h : F.Operand n s c t)
      (hc : (F.fold c).outcome t = .ok v) : Gives n s v
  | unary {n c : Node} {s : σ} {a v : Value} {operator : String}
      (h : F.plan n = .unary operator c) (hc : (F.fold c).outcome s = .ok a)
      (ho : applyUnary operator n.kind a = .ok v) : Gives n s v
  | binary {n l r : Node} {s : σ} {a b v : Value} {spelling : String} {operator : BinaryOperator}
      (h : F.plan n = .binary spelling operator l r) (hl : (F.fold l).outcome s = .ok a)
      (hr : (F.fold r).outcome ((F.fold l).after s) = .ok b)
      (ho : applyBinary spelling n.kind operator a b = .ok v) : Gives n s v
  | array {n : Node} {s : σ} {es : List Node} {acc : Accumulator} (h : F.plan n = .array es)
      (hb : (F.foldElements es Accumulator.empty).outcome s = .ok acc) : Gives n s acc.value

variable {F}

/-- An expression that has a value got it in one of these ways. -/
theorem fold_ok_cases {n : Node} {s : σ} {v : Value} (h : (F.fold n).outcome s = .ok v) :
    F.Gives n s v := by
  rw [F.fold_eq] at h
  cases hp : F.plan n with
  | done o => rw [hp] at h; exact .done (hp.trans (congrArg _ (show o = .ok v from h)))
  | lacking => rw [hp] at h; cases h
  | constant scope name => rw [hp] at h; exact .constant hp h
  | inner c => rw [hp] at h; exact .operand (.inner hp) h
  | unary operator c =>
    rw [hp] at h
    obtain ⟨a, hc, h⟩ := exists_of_bind_ok h
    exact .unary hp hc h
  | coalesce left right =>
    rw [hp] at h
    obtain ⟨a, hl, h⟩ := exists_of_bind_ok h
    split at h
    next hv => exact .operand (.fallback hp hl hv) h
    next => cases h; exact .operand (.preferred hp) hl
  | binary spelling operator left right =>
    rw [hp] at h
    obtain ⟨a, hl, h⟩ := exists_of_bind_ok h
    obtain ⟨b, hr, h⟩ := exists_of_bind_ok h
    exact .binary hp hl hr h
  | conditional condition body alternative =>
    rw [hp] at h
    obtain ⟨a, hc, h⟩ := exists_of_bind_ok h
    split at h
    next hv =>
      cases body with
      | none => cases h; exact .operand (.condition hp) hc
      | some body => exact .operand (.body hp hc hv) h
    next hv => exact .operand (.alternative hp hc hv) h
  | array elements =>
    rw [hp] at h
    obtain ⟨acc, hb, h⟩ := exists_of_bind_ok h
    cases h
    exact .array hp hb

theorem fold_done {n : Node} {s : σ} {o : Outcome Value} (h : F.plan n = .done o) :
    (F.fold n).outcome s = o := by
  rw [F.fold_eq, h]
  rfl

theorem fold_name {n : Node} {s : σ} (h : ExprForm.ofKind? n.kind = some .name) :
    (F.fold n).outcome s = F.namedConstant (F.text n) :=
  fold_done (by rw [plan, h])

theorem fold_unary {n c : Node} {s : σ} {a : Value} {operator : String}
    (h : F.plan n = .unary operator c) (hc : (F.fold c).outcome s = .ok a) :
    (F.fold n).outcome s = applyUnary operator n.kind a := by
  rw [F.fold_eq, h]
  exact outcome_bind_ok hc

theorem fold_binary {n l r : Node} {s : σ} {a b : Value} {spelling : String}
    {operator : BinaryOperator} (h : F.plan n = .binary spelling operator l r)
    (hl : (F.fold l).outcome s = .ok a)
    (hr : (F.fold r).outcome ((F.fold l).after s) = .ok b) :
    (F.fold n).outcome s = applyBinary spelling n.kind operator a b := by
  rw [F.fold_eq, h]
  exact (outcome_bind_ok hl).trans (outcome_bind_ok hr)

theorem fold_array_ok {n : Node} {s : σ} {es : List Node} {acc : Accumulator}
    (h : F.plan n = .array es) (hb : (F.foldElements es Accumulator.empty).outcome s = .ok acc) :
    (F.fold n).outcome s = .ok acc.value := by
  rw [F.fold_eq, h]
  exact outcome_bind_ok hb

/-- How an element that is in place was added. -/
theorem foldElement_ok_cases {acc next : Accumulator} {e : Node} {s : σ}
    (h : (F.foldElement acc e).outcome s = .ok next) :
    (∃ c v, e.elementPlan = .spread c ∧ (F.fold c).outcome s = .ok v ∧ acc.extend v = .ok next)
      ∨ (∃ k i a v, e.elementPlan = .keyed k i ∧ (F.fold k).outcome s = .ok a
        ∧ (F.fold i).outcome ((F.fold k).after s) = .ok v ∧ acc.set a v = .ok next)
      ∨ ∃ i v, e.elementPlan = .plain i ∧ (F.fold i).outcome s = .ok v ∧ next = acc.append v := by
  unfold foldElement at h
  cases he : e.elementPlan with
  | lacking => rw [he] at h; cases h
  | byReference => rw [he] at h; cases h
  | spread c =>
    rw [he] at h
    obtain ⟨v, hc, h⟩ := exists_of_bind_ok h
    exact .inl ⟨c, v, rfl, hc, h⟩
  | keyed k i =>
    rw [he] at h
    obtain ⟨a, hk, h⟩ := exists_of_bind_ok h
    obtain ⟨v, hi, h⟩ := exists_of_bind_ok h
    exact .inr (.inl ⟨k, i, a, v, rfl, hk, hi, h⟩)
  | plain i =>
    rw [he] at h
    obtain ⟨v, hi, h⟩ := exists_of_bind_ok h
    cases h
    exact .inr (.inr ⟨i, v, rfl, hi, rfl⟩)

/-- What every element preserves holds when all of them are in place. -/
theorem foldElements_invariant {P : Accumulator → Prop} {es : List Node} {s : σ}
    {start final : Accumulator} (h : (F.foldElements es start).outcome s = .ok final)
    (h0 : P start)
    (hstep : ∀ before e rest acc next, es = before ++ e :: rest →
      (F.foldElements before start).outcome s = .ok acc →
      (F.foldElement acc e).outcome ((F.foldElements before start).after s) = .ok next →
      P acc → P next) : P final := by
  induction es generalizing start s with
  | nil => rw [foldElements_nil] at h; cases h; exact h0
  | cons e es ih =>
    rw [foldElements_cons] at h
    obtain ⟨first, hfirst, h⟩ := exists_of_bind_ok h
    have hone := hstep [] e es start first rfl (by rw [foldElements_nil]; rfl)
      (by rw [foldElements_nil]; exact hfirst) h0
    refine ih h hone fun before d rest acc next hes hb hd hacc => ?_
    refine hstep (e :: before) d rest acc next (by rw [hes, List.cons_append]) ?_ ?_ hacc
    · rw [foldElements_cons, outcome_bind_ok hfirst, hb]
    · rw [foldElements_cons, after_bind_ok hfirst, hd]

end StaticReflection.Folder
