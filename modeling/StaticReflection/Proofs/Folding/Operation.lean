import StaticReflection.Proofs.Folding.Range

/-!
# Operators on operands with values

What an operator expression comes to depends on the values of its operands alone. An `Operation` is
an operator with such values, and `Folder.CarriesOut` finds it in a node: the operands come to these
values, the right one from the state that the left one leaves.

> `Operation.Folds x o`: every expression that carries out the operation comes to the outcome.

There is such an expression for every operation (`Operation.carriesOut_node`), so a binary operation
folds to a value exactly if the operator has that value (`Operation.folds_ok_iff`).
-/

namespace StaticReflection

open Folding

/-- An operator and the values of its operands. -/
inductive Operation where
  | unary (operator : String) (v : Value)
  | binary (operator : BinaryOperator) (a b : Value)

/-- A node, folded from a state, is an operator on operands that come to these values. -/
inductive Folder.CarriesOut {σ : Type} (F : Folder σ) (n : Node) (s : σ) : Operation → Prop
  | unary {operator : String} {c : Node} {v : Value} (hplan : F.plan n = .unary operator c)
    (hv : (F.fold c).outcome s = .ok v) : CarriesOut F n s (.unary operator v)
  | binary {spelling : String} {operator : BinaryOperator} {left right : Node} {a b : Value}
    (hplan : F.plan n = .binary spelling operator left right)
    (ha : (F.fold left).outcome s = .ok a)
    (hb : (F.fold right).outcome ((F.fold left).after s) = .ok b) :
    CarriesOut F n s (.binary operator a b)

/-- How an operator is written. -/
def BinaryOperator.spelling : BinaryOperator → String
  | .add => "+"
  | .subtract => "-"
  | .multiply => "*"
  | .divide => "/"
  | .modulo => "%"
  | .power => "**"
  | .concat => "."
  | .bitOr => "|"
  | .bitAnd => "&"
  | .bitXor => "^"
  | .shiftLeft => "<<"
  | .shiftRight => ">>"
  | .and => "&&"
  | .or => "||"
  | .xor => "xor"
  | .equal => "=="
  | .notEqual => "!="
  | .identical => "==="
  | .notIdentical => "!=="
  | .compare c => c.sign
  | .spaceship => "<=>"

theorem BinaryOperator.ofSpelling?_spelling (operator : BinaryOperator) :
    ofSpelling? operator.spelling = some operator := by
  cases operator with
  | compare c => cases c <;> rfl
  | _ => rfl

theorem BinaryOperator.lower_spelling (operator : BinaryOperator) :
    LetterCase.lower operator.spelling = operator.spelling := by
  cases operator with
  | compare c => cases c <;> rfl
  | _ => rfl

namespace Operation

/-- Every expression that carries out the operation comes to the outcome. -/
def Folds (x : Operation) (o : Outcome Value) : Prop :=
  ∀ (σ : Type) (F : Folder σ) (n : Node) (s : σ), F.CarriesOut n s x → (F.fold n).outcome s = o

variable {operator : BinaryOperator} {a b v : Value}

theorem folds_unary {operator : String} {o : Outcome Value}
    (h : Value.applyUnary? operator v = some o) : (unary operator v).Folds o := by
  intro σ F n s hx
  cases hx with
  | unary hplan hv =>
    have hvalue : Folder.applyUnary operator n.kind v = o := by
      unfold Folder.applyUnary
      rw [h, Option.getD_some]
    rw [F.fold_eq, hplan]
    exact (outcome_bind_ok hv).trans hvalue

theorem outcome_binary {σ : Type} {F : Folder σ} {n : Node} {s : σ}
    (h : F.CarriesOut n s (binary operator a b)) :
    ∃ spelling, (F.fold n).outcome s = Folder.applyBinary spelling n.kind operator a b := by
  cases h with
  | binary hplan ha hb =>
    rw [F.fold_eq, hplan]
    exact ⟨_, (outcome_bind_ok ha).trans (outcome_bind_ok hb)⟩

theorem folds_unfoldable {reason : Unfoldable}
    (h : Value.apply operator a b = Outcome.unfoldable reason) :
    (binary operator a b).Folds (Outcome.unfoldable reason) := by
  intro σ F n s hx
  obtain ⟨spelling, hn⟩ := outcome_binary hx
  rw [hn, Folder.applyBinary, h]
  rfl

/-! ## An expression for every operation -/

/-- A reference to a class constant, which may have any value. -/
def operandNode (name : String) : Node :=
  ⟨"class_constant_access_expression", 0, 0, none, true, false,
    [⟨"name", 0, 0, none, true, false, []⟩, ⟨name, 0, 0, none, true, false, []⟩]⟩

/-- The operator between or before such references. -/
def node : Operation → Node
  | .unary operator _ => ⟨"unary_op_expression", 0, 0, none, true, false,
    [⟨operator, 0, 0, none, false, false, []⟩, operandNode "left"]⟩
  | .binary operator _ _ => ⟨"binary_expression", 0, 0, none, true, false,
    [operandNode "left", ⟨operator.spelling, 0, 0, none, false, false, []⟩, operandNode "right"]⟩

/-- A folder whose class constants are the operands. -/
def folder : Operation → Folder Unit
  | .unary _ v => ⟨Node.kind, some fun _ _ => pure v, []⟩
  | .binary _ a b => ⟨Node.kind, some fun _ name => pure (if name = "left" then a else b), []⟩

theorem plan_operandNode {F : Folder Unit} (h : F.text = Node.kind) (name : String) :
    F.plan (operandNode name) = .constant "name" name := by
  obtain ⟨text, resolver, magic⟩ := F
  cases h
  rfl

theorem plan_binary (operator : BinaryOperator) (a b : Value) :
    (folder (binary operator a b)).plan (node (binary operator a b))
      = .binary operator.spelling operator (operandNode "left") (operandNode "right") := by
  have hform : ExprForm.ofKind? (node (binary operator a b)).kind = some .binary := rfl
  have hleft : ((node (binary operator a b)).childInField? "left"
      <|> (node (binary operator a b)).children.head?) = some (operandNode "left") := rfl
  have hright : ((node (binary operator a b)).childInField? "right"
      <|> (node (binary operator a b)).children.getLast?) = some (operandNode "right") := rfl
  have hoperator : ((node (binary operator a b)).childInField? "operator"
      <|> (node (binary operator a b)).children[1]?)
      = some ⟨operator.spelling, 0, 0, none, false, false, []⟩ := rfl
  have htext : (folder (binary operator a b)).text = Node.kind := rfl
  -- the one spelling that is no operator on two values
  have hspelling : operator.spelling ≠ "??" := by
    intro h
    have hop := operator.ofSpelling?_spelling
    rw [h] at hop
    cases hop
  simp only [Folder.plan, hform, hleft, hright, hoperator, htext, operator.lower_spelling,
    if_neg hspelling, operator.ofSpelling?_spelling]

theorem carriesOut_node (x : Operation) : x.folder.CarriesOut x.node () x := by
  cases x with
  | unary operator v =>
    have hv : ((folder (unary operator v)).fold (operandNode "left")).outcome () = .ok v := by
      rw [Folder.fold_constant (plan_operandNode rfl _)]
      rfl
    exact .unary rfl hv
  | binary operator a b =>
    have hleft : (folder (binary operator a b)).fold (operandNode "left") = pure a := by
      rw [Folder.fold_constant (plan_operandNode rfl _)]
      rfl
    have hright : (folder (binary operator a b)).fold (operandNode "right") = pure b := by
      rw [Folder.fold_constant (plan_operandNode rfl _)]
      rfl
    refine .binary (plan_binary operator a b) ?_ ?_
    · rw [hleft]
      rfl
    · rw [hright]
      rfl

/-- A binary operation folds to a value exactly if the operator has that value. -/
theorem folds_ok_iff :
    (binary operator a b).Folds (.ok v) ↔ Value.apply operator a b = .ok v := by
  constructor
  · intro h
    have hx := carriesOut_node (binary operator a b)
    obtain ⟨spelling, hn⟩ := outcome_binary hx
    rw [h _ _ _ _ hx] at hn
    exact Folder.applyBinary_ok_iff.mp hn.symm
  · intro h σ F n s hx
    obtain ⟨spelling, hn⟩ := outcome_binary hx
    exact hn.trans (Folder.applyBinary_ok_iff.mpr h)

end Operation

end StaticReflection
