import StaticReflection.Proofs.Folding.Reach

/-!
# Folding each expression where it stands

One folder serves for a whole expression. `Folder.foldEach` folds each node of it with a
folder of its own, so that what a token means may depend on the place where it is written.

> `Folder.foldEach_same`: a fold that reads every node which it reaches as the node's own
> folder does comes to the same outcome and the same state.

Nodes that are not reached may be read differently. So the hypothesis is about
`Folder.Reaches`, and the induction follows the operands that are really folded.
-/

namespace StaticReflection

namespace Folding

variable {σ α β : Type}

/-- From a state two steps come to one outcome and one state. -/
def SameAt (q q' : Folding σ α) (s : σ) : Prop :=
  outcome q s = outcome q' s ∧ after q s = after q' s

variable {q q' : Folding σ α} {g g' : α → Folding σ β} {s : σ}

theorem SameAt.rfl : SameAt q q s := ⟨Eq.refl _, Eq.refl _⟩

/-- Sequences are the same if their first parts are, and what follows its value. -/
theorem SameAt.bind (h : SameAt q q' s)
    (hok : ∀ a, outcome q' s = .ok a → SameAt (g a) (g' a) (after q' s)) :
    SameAt (q >>= g) (q' >>= g') s := by
  unfold SameAt
  rw [outcome_bind, after_bind, outcome_bind, after_bind, h.1, h.2]
  cases hq : outcome q' s with
  | ok a => exact hok a hq
  | error f => exact ⟨Eq.refl _, Eq.refl _⟩

end Folding

open Folding

namespace Folder

variable {σ : Type}

/-! ## Plans carried out with other folds of the operands -/

/-- An array with one element more, given how to fold what the element is made of. -/
def addElement (kind : String) (acc : Accumulator) : (p : ElementPlan) →
    ((c : Node) → c ∈ p.operands → Folding σ Value) → Folding σ Accumulator
  | .lacking, _ => Folding.missingChild
  | .spread c, fold => do Folding.lift (acc.extend (← fold c (List.mem_singleton.mpr rfl)))
  | .keyed key item, fold => do
    let k ← fold key (List.mem_cons_self ..)
    let v ← fold item (List.mem_cons_of_mem _ (List.mem_singleton.mpr rfl))
    Folding.lift (acc.set k v)
  | .byReference, _ => Folding.unfoldable (.byReference kind)
  | .plain item, fold => do return acc.append (← fold item (List.mem_singleton.mpr rfl))

/-- An array with more elements, given how to fold what they are made of. -/
def addElements : (es : List Node) →
    ((c : Node) → c ∈ es.flatMap (fun e => e.elementPlan.operands) → Folding σ Value) →
    Accumulator → Folding σ Accumulator
  | [], _, acc => return acc
  | e :: rest, fold, acc => do
    let next ← addElement e.kind acc e.elementPlan fun c hc =>
      fold c (List.mem_flatMap.mpr ⟨e, List.mem_cons_self .., hc⟩)
    addElements rest (fun c hc => fold c (by
      obtain ⟨d, hd, hc⟩ := List.mem_flatMap.mp hc
      exact List.mem_flatMap.mpr ⟨d, List.mem_cons_of_mem _ hd, hc⟩)) next

/-- Folds what a plan says of a node, given how to fold its operands. -/
def carryOutWith (F : Folder σ) (n : Node) : (p : FoldPlan) →
    ((c : Node) → c ∈ p.operands → Folding σ Value) → Folding σ Value
  | .done o, _ => Folding.lift o
  | .lacking, _ => Folding.missingChild
  | .constant scope name, _ => F.resolve n scope name
  | .inner c, fold => fold c (List.mem_singleton.mpr rfl)
  | .unary operator c, fold => do
    Folding.lift (applyUnary operator n.kind (← fold c (List.mem_singleton.mpr rfl)))
  | .coalesce _ right, fold => do
    let v ← fold _ (List.mem_cons_self ..)
    if v.isNull then fold right (List.mem_cons_of_mem _ (List.mem_singleton.mpr rfl)) else return v
  | .binary spelling operator _ right, fold => do
    let a ← fold _ (List.mem_cons_self ..)
    let b ← fold right (List.mem_cons_of_mem _ (List.mem_singleton.mpr rfl))
    Folding.lift (applyBinary spelling n.kind operator a b)
  | .conditional _ (some body) alternative, fold => do
    let v ← fold _ (List.mem_cons_self ..)
    if v.truthy then
      fold body (List.mem_cons_of_mem _ (List.mem_cons_of_mem _ (List.mem_singleton.mpr rfl)))
    else fold alternative (List.mem_cons_of_mem _ (List.mem_cons_self ..))
  | .conditional _ none alternative, fold => do
    let v ← fold _ (List.mem_cons_self ..)
    if v.truthy then return v
    else fold alternative (List.mem_cons_of_mem _ (List.mem_cons_self ..))
  | .array elements, fold => do return (← addElements elements fold Accumulator.empty).value

/-- The value of an expression of which each node is folded with its own folder. -/
def foldEach (G : Node → Folder σ) (n : Node) : Folding σ Value :=
  (G n).carryOutWith n ((G n).plan n) fun c hc =>
    have : c.size < n.size := size_of_plan hc
    foldEach G c
termination_by n.size

/-! ## Folds that read nodes alike -/

/-- From a state two folders read a node alike: its plan, and the class constant that it
may be. -/
structure ReadsAlike (F H : Folder σ) (n : Node) (s : σ) : Prop where
  plan : H.plan n = F.plan n
  resolve : ∀ scope name, F.plan n = .constant scope name →
    SameAt (H.resolve n scope name) (F.resolve n scope name) s

variable {F : Folder σ} {n : Node} {s : σ}

theorem addElement_same {e : Node} {acc : Accumulator} {p : ElementPlan}
    (hp : e.elementPlan = p) {fold : (c : Node) → c ∈ p.operands → Folding σ Value}
    (h : ∀ c hc t, F.ElementOperand e s c t → SameAt (fold c hc) (F.fold c) t) :
    SameAt (addElement e.kind acc p fold) (F.foldElement acc e) s := by
  unfold foldElement
  rw [hp]
  cases p with
  | lacking => exact .rfl
  | byReference => exact .rfl
  | spread c => exact (h c _ s (.spread hp)).bind fun _ _ => .rfl
  | plain item => exact (h item _ s (.plain hp)).bind fun _ _ => .rfl
  | keyed key item =>
    refine (h key _ s (.key hp)).bind fun k hk => ?_
    exact (h item _ _ (.item hp hk)).bind fun _ _ => .rfl

/-- The elements of an array that follow those in place. -/
theorem addElements_same {before es : List Node} (hplan : F.plan n = .array (before ++ es))
    {acc : Accumulator} (hb : (F.foldElements before Accumulator.empty).outcome s = .ok acc)
    {fold : (c : Node) → c ∈ es.flatMap (fun e => e.elementPlan.operands) → Folding σ Value}
    (h : ∀ c hc t, F.Operand n s c t → SameAt (fold c hc) (F.fold c) t) :
    SameAt (addElements es fold acc) (F.foldElements es acc)
      ((F.foldElements before Accumulator.empty).after s) := by
  induction es generalizing before acc with
  | nil => rw [foldElements_nil]; exact .rfl
  | cons e rest ih =>
    rw [foldElements_cons]
    refine (addElement_same rfl fun c hc t ho => h c _ t (.element hplan hb ho)).bind
      fun next hnext => ?_
    -- with the element in place the rest follows
    have hnow : (F.foldElements (before ++ [e]) Accumulator.empty).outcome s = .ok next := by
      rw [foldElements_concat, outcome_bind_ok hb, hnext]
    have hafter : (F.foldElements (before ++ [e]) Accumulator.empty).after s
        = (F.foldElement acc e).after ((F.foldElements before Accumulator.empty).after s) := by
      rw [foldElements_concat, after_bind_ok hb]
    rw [← hafter]
    exact ih (by rw [hplan, List.append_assoc, List.singleton_append]) hnow fun c hc t ho =>
      h c _ t ho

/-- A plan carried out with the same folds of the operands that are folded. -/
theorem carryOutWith_same {H : Folder σ} {p : FoldPlan} (hp : F.plan n = p)
    (hresolve : ∀ scope name, p = .constant scope name →
      SameAt (H.resolve n scope name) (F.resolve n scope name) s)
    {fold : (c : Node) → c ∈ p.operands → Folding σ Value}
    (h : ∀ c hc t, F.Operand n s c t → SameAt (fold c hc) (F.fold c) t) :
    SameAt (H.carryOutWith n p fold) (F.carryOut n p) s := by
  cases p with
  | done o => exact .rfl
  | lacking => exact .rfl
  | constant scope name => exact hresolve scope name rfl
  | inner c => exact h c _ s (.inner hp)
  | unary operator c => exact (h c _ s (.unary hp)).bind fun _ _ => .rfl
  | coalesce left right =>
    refine (h left _ s (.preferred hp)).bind fun v hv => ?_
    split
    next hnull => exact h right _ _ (.fallback hp hv hnull)
    next => exact .rfl
  | binary spelling operator left right =>
    refine (h left _ s (.left hp)).bind fun a ha => ?_
    exact (h right _ _ (.right hp ha)).bind fun _ _ => .rfl
  | conditional condition body alternative =>
    cases body with
    | none =>
      refine (h condition _ s (.condition hp)).bind fun v hv => ?_
      split
      next => exact .rfl
      next hfalse => exact h alternative _ _ (.alternative hp hv hfalse)
    | some body =>
      refine (h condition _ s (.condition hp)).bind fun v hv => ?_
      split
      next htrue => exact h body _ _ (.body hp hv htrue)
      next hfalse => exact h alternative _ _ (.alternative hp hv hfalse)
  | array elements =>
    have hnone : F.foldElements [] Accumulator.empty = pure Accumulator.empty := foldElements_nil ..
    have hplan : F.plan n = .array ([] ++ elements) := hp
    have hb : (F.foldElements [] Accumulator.empty).outcome s = .ok Accumulator.empty := by
      rw [hnone, outcome_pure]
    have helements := addElements_same hplan hb h
    rw [hnone, after_pure] at helements
    exact helements.bind fun _ _ => .rfl

/-- A fold that reads every node which it reaches as the node's own folder does is the
fold of each node with its own folder. -/
theorem foldEach_same {G : Node → Folder σ}
    (h : ∀ m t, F.Reaches n s m t → F.ReadsAlike (G m) m t) :
    SameAt (foldEach G n) (F.fold n) s := by
  -- on the size of the node, since operands are smaller
  induction hsize : n.size using Nat.strongRecOn generalizing n s with
  | ind k ih =>
    have hread := h n s .refl
    rw [foldEach, fold_eq, ← hread.plan]
    refine carryOutWith_same hread.plan.symm
      (fun scope name hconstant => hread.resolve scope name (hread.plan ▸ hconstant))
      fun c _ t ho => ?_
    exact ih c.size (hsize ▸ ho.size_lt) (fun m u hr => h m u (.step ho hr)) rfl

end Folder

end StaticReflection
