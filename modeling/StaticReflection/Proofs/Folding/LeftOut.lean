import StaticReflection.Proofs.Folding.Faults

/-!
# What a fold leaves out

A variable, a call, the creation of an object and a closure have no value: a fold that comes
to one fails, and says so (`Folder.Reaches.refused`). Not every operand is folded, though.
`Folder.Spares` lists those that are not needed, `Folder.PassesOver` all that a fold does not
come to inside of an expression.

> `fold_ok_leavesOut`: where a fold has a value, every variable, call, object creation and
> closure in the expression was left out on the way to it.

Operands that are needed have values of their own (`fold_ok_operand`), so the induction goes
down along them until one is left out.
-/

namespace StaticReflection

open Folding

namespace Node

/-- The kinds of variables, calls, creations of objects and closures. -/
def nonConstantKinds : List String :=
  ["variable_name", "dynamic_variable_name", "function_call_expression", "member_call_expression",
    "nullsafe_member_call_expression", "scoped_call_expression", "object_creation_expression",
    "anonymous_function", "anonymous_function_creation_expression", "arrow_function"]

/-- Whether a node is a variable, a call, the creation of an object or a closure. -/
def isNonConstant (n : Node) : Bool := nonConstantKinds.contains n.kind

theorem ofKind?_of_isNonConstant {n : Node} (h : n.isNonConstant = true) :
    ExprForm.ofKind? n.kind = none := by
  have hall : ∀ kind ∈ nonConstantKinds, ExprForm.ofKind? kind = none := by decide
  exact hall n.kind (List.contains_iff_mem.mp h)

end Node

namespace Folder

variable {σ : Type} (F : Folder σ)

/-- An expression that is no constant, or a string with an expression in it, and why it has
no value. -/
inductive Refuses (n : Node) : Unfoldable → Prop
  | nonConstant (h : n.isNonConstant = true) : Refuses n (.notConstant n.kind (F.text n))
  | interpolated {c : Node}
      (hform : ExprForm.ofKind? n.kind = some .encapsed ∨ ExprForm.ofKind? n.kind = some .heredoc)
      (h : (Node.interpolatedParts n.children).getLast? = some c) :
      Refuses n (.interpolated c.kind (F.text c))

/-- An operand that is not folded, since another one has a value with which it is not
needed. -/
inductive Spares : Node → σ → Node → Prop
  | fallback {n l r : Node} {s : σ} {v : Value} (h : F.plan n = .coalesce l r)
      (hl : outcome (F.fold l) s = .ok v) (hv : ¬v.isNull = true) : Spares n s r
  | body {n c a b : Node} {s : σ} {v : Value} (h : F.plan n = .conditional c (some b) a)
      (hc : outcome (F.fold c) s = .ok v) (hv : ¬v.truthy = true) : Spares n s b
  | alternative {n c a : Node} {b : Option Node} {s : σ} {v : Value}
      (h : F.plan n = .conditional c b a) (hc : outcome (F.fold c) s = .ok v)
      (hv : v.truthy = true) : Spares n s a

/-- A node inside of an expression that folding the expression does not come to. -/
inductive PassesOver : Node → σ → Node → Prop
  | spared {n c m : Node} {s : σ} (h : F.Spares n s c) (hm : m ∈ c.preorder) : PassesOver n s m
  /-- The scope and the name of a class constant are read as texts. -/
  | reference {n m : Node} {s : σ} {scope name : String} (h : F.plan n = .constant scope name)
      (hm : m ∈ Node.preorders n.children) : PassesOver n s m
  /-- What lies in no operand, such as a comment or a part of a literal. -/
  | beside {n m : Node} {s : σ} (hn : ∀ scope name, F.plan n ≠ .constant scope name)
      (hm : m ∈ Node.preorders n.children) (h : ∀ c ∈ (F.plan n).operands, m ∉ c.preorder) :
      PassesOver n s m

/-- A node inside of an expression is left out on the way to the expression's value. -/
def LeavesOut (n : Node) (s : σ) (m : Node) : Prop :=
  ∃ k t, F.Reaches n s k t ∧ F.PassesOver k t m

variable {F} {n m : Node} {s t : σ}

/-! ## Expressions that are refused -/

theorem Refuses.plan {reason : Unfoldable} (h : F.Refuses n reason) :
    F.plan n = .done (.error (.unfoldable reason)) := by
  have plain {c : Node} (hc : (Node.interpolatedParts n.children).getLast? = some c) :
      F.plainString n = .error (.unfoldable (.interpolated c.kind (F.text c))) := by
    unfold plainString
    rw [hc]
    rfl
  cases h with
  | nonConstant h => rw [Folder.plan, Node.ofKind?_of_isNonConstant h]; rfl
  | interpolated hform hc =>
    rcases hform with hform | hform
    · rw [Folder.plan, hform]
      simp only
      unfold encapsed
      rw [plain hc]
      rfl
    · rw [Folder.plan, hform]
      simp only
      unfold heredoc
      rw [plain hc]
      rfl

/-- A fold that comes to an expression that is refused fails with the reason. -/
theorem Reaches.refused {reason : Unfoldable} (hr : F.Reaches n s m t)
    (h : F.Refuses m reason) : outcome (F.fold n) s = .error (.unfoldable reason) :=
  hr.error (fold_done h.plan)

/-! ## Operands of expressions that have a value -/

/-- Each element of an array that is in place was added in its turn. -/
theorem foldElements_ok_at {before rest : List Node} {e : Node} {start final : Accumulator}
    (h : outcome (F.foldElements (before ++ e :: rest) start) s = .ok final) :
    ∃ acc next, outcome (F.foldElements before start) s = .ok acc
      ∧ outcome (F.foldElement acc e) (after (F.foldElements before start) s) = .ok next := by
  rw [foldElements_append] at h
  obtain ⟨acc, hbefore, h⟩ := exists_of_bind_ok h
  rw [foldElements_cons] at h
  obtain ⟨next, hnext, _⟩ := exists_of_bind_ok h
  exact ⟨acc, next, hbefore, hnext⟩

/-- What an element that is in place is made of has values. -/
theorem foldElement_ok_operand {e c : Node} {acc next : Accumulator}
    (h : outcome (F.foldElement acc e) s = .ok next) (hc : c ∈ e.elementPlan.operands) :
    ∃ t v, F.ElementOperand e s c t ∧ outcome (F.fold c) t = .ok v := by
  rcases foldElement_ok_cases h with ⟨d, v, he, hd, _⟩ | ⟨k, i, a, v, he, hk, hi, _⟩
    | ⟨i, v, he, hi, _⟩
  · rw [he] at hc
    obtain rfl := List.mem_singleton.mp hc
    exact ⟨s, v, .spread he, hd⟩
  · rw [he] at hc
    rcases List.mem_cons.mp hc with rfl | hc
    · exact ⟨s, a, .key he, hk⟩
    · obtain rfl := List.mem_singleton.mp hc
      exact ⟨_, v, .item he hk, hi⟩
  · rw [he] at hc
    obtain rfl := List.mem_singleton.mp hc
    exact ⟨s, v, .plain he, hi⟩

/-- Every operand of an expression that has a value has one itself, or was not needed. -/
theorem fold_ok_operand {c : Node} {v : Value} (h : outcome (F.fold n) s = .ok v)
    (hc : c ∈ (F.plan n).operands) :
    (∃ t u, F.Operand n s c t ∧ outcome (F.fold c) t = .ok u) ∨ F.Spares n s c := by
  rw [F.fold_eq] at h
  cases hp : F.plan n with
  | done o => rw [hp] at hc; cases hc
  | lacking => rw [hp] at hc; cases hc
  | constant scope name => rw [hp] at hc; cases hc
  | inner d =>
    rw [hp] at h hc
    obtain rfl := List.mem_singleton.mp hc
    exact .inl ⟨s, v, .inner hp, h⟩
  | unary operator d =>
    rw [hp] at h hc
    obtain rfl := List.mem_singleton.mp hc
    obtain ⟨a, hd, _⟩ := exists_of_bind_ok h
    exact .inl ⟨s, a, .unary hp, hd⟩
  | coalesce left right =>
    rw [hp] at h hc
    obtain ⟨a, hl, h⟩ := exists_of_bind_ok h
    rcases List.mem_cons.mp hc with rfl | hc
    · exact .inl ⟨s, a, .preferred hp, hl⟩
    · obtain rfl := List.mem_singleton.mp hc
      by_cases hnull : a.isNull = true
      · rw [if_pos hnull] at h
        exact .inl ⟨_, v, .fallback hp hl hnull, h⟩
      · exact .inr (.fallback hp hl hnull)
  | binary spelling operator left right =>
    rw [hp] at h hc
    obtain ⟨a, hl, h⟩ := exists_of_bind_ok h
    obtain ⟨b, hr, _⟩ := exists_of_bind_ok h
    rcases List.mem_cons.mp hc with rfl | hc
    · exact .inl ⟨s, a, .left hp, hl⟩
    · obtain rfl := List.mem_singleton.mp hc
      exact .inl ⟨_, b, .right hp hl, hr⟩
  | conditional condition body alternative =>
    rw [hp] at h hc
    obtain ⟨a, hcond, h⟩ := exists_of_bind_ok h
    rcases List.mem_cons.mp hc with rfl | hc
    · exact .inl ⟨s, a, .condition hp, hcond⟩
    · rcases List.mem_cons.mp hc with rfl | hc
      · by_cases htruthy : a.truthy = true
        · exact .inr (.alternative hp hcond htruthy)
        · rw [if_neg htruthy] at h
          exact .inl ⟨_, v, .alternative hp hcond htruthy, h⟩
      · obtain rfl := Option.mem_toList.mp hc
        by_cases htruthy : a.truthy = true
        · rw [if_pos htruthy] at h
          exact .inl ⟨_, v, .body hp hcond htruthy, h⟩
        · exact .inr (.body hp hcond htruthy)
  | array elements =>
    rw [hp] at h hc
    obtain ⟨final, hfinal, _⟩ := exists_of_bind_ok h
    obtain ⟨e, he, hce⟩ := List.mem_flatMap.mp hc
    obtain ⟨before, rest, rfl⟩ := List.append_of_mem he
    obtain ⟨acc, next, hbefore, hnext⟩ := foldElements_ok_at hfinal
    obtain ⟨t, u, hoperand, hu⟩ := foldElement_ok_operand hnext hce
    exact .inl ⟨t, u, .element hp hbefore hoperand, hu⟩

/-- Whatever is no constant is left out where a fold has a value. -/
theorem fold_ok_leavesOut {v : Value} (h : outcome (F.fold n) s = .ok v) (hm : m ∈ n.preorder)
    (hno : m.isNonConstant = true) : F.LeavesOut n s m := by
  -- on the size of the expression, since operands are smaller
  induction hsize : n.size using Nat.strongRecOn generalizing n s v with
  | ind size ih =>
    rw [n.preorder_eq] at hm
    rcases List.mem_cons.mp hm with rfl | hm
    · rw [Reaches.refused .refl (.nonConstant hno)] at h
      cases h
    · by_cases hin : ∃ c ∈ (F.plan n).operands, m ∈ c.preorder
      · obtain ⟨c, hc, hmc⟩ := hin
        rcases fold_ok_operand h hc with ⟨t, u, hoperand, hu⟩ | hspared
        · obtain ⟨k, x, hr, hk⟩ := ih c.size (hsize ▸ hoperand.size_lt) hu hmc rfl
          exact ⟨k, x, .step hoperand hr, hk⟩
        · exact ⟨n, s, .refl, .spared hspared hmc⟩
      · have hnone (c : Node) (hc : c ∈ (F.plan n).operands) : m ∉ c.preorder := fun hmc =>
          hin ⟨c, hc, hmc⟩
        by_cases hconstant : ∃ scope name, F.plan n = .constant scope name
        · obtain ⟨scope, name, hplan⟩ := hconstant
          exact ⟨n, s, .refl, .reference hplan hm⟩
        · refine ⟨n, s, .refl, .beside (fun scope name hplan => ?_) hm hnone⟩
          exact hconstant ⟨scope, name, hplan⟩

end Folder

end StaticReflection
