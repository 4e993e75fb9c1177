import StaticReflection.Proofs.Folding.Comparison
import StaticReflection.Proofs.Value.Apart

/-!
# The identity operators

`===` compares the kinds of its operands, and then the operands for equality. It does not compare
the kinds of what is inside them: two arrays are taken for identical if they are equal, although
truth values stand for integers in one of them, or its entries are in another order.

> `Operation.folds_identity`: `===` holds for alike operands of one kind; among them it is the
> literals that tell whether they are the same.

Operands that are no arrays have nothing inside them, and there the operators are right.
-/

namespace StaticReflection

namespace Value

variable {a b : Value}

theorem identical_iff (ha : a.Exact) (hb : b.Exact) :
    identical a b = true ↔ a.kind = b.kind ∧ Alike a b := by
  rw [identical, Bool.and_eq_true, beq_iff_eq, eq_iff ha hb]

/-- Alike values of one kind that are no arrays are the same. -/
theorem Alike.eq_of_scalar (h : Alike a b) (hkind : a.kind = b.kind) (hscalar : a.isArray = false) :
    a = b := by
  cases h with
  | null => rfl
  | text t => rfl
  | list => cases hscalar
  | map => cases hscalar
  | number hm hn =>
    have heq : a.integer? = b.integer? := hm.trans hn.symm
    cases a with
    | bool x =>
      cases b with
      | bool y => cases x <;> cases y <;> first | rfl | cases heq
      | _ => cases hkind
    | int m =>
      cases b with
      | int n => rw [Option.some.inj heq]
      | _ => cases hkind
    | _ => cases hm

end Value

namespace Operation

/-- The identity operators on values without doubles. `===` has a truth value, and `!==` the
opposite one. It is true exactly for operands of one kind that are alike inside: for the same
operands, and for no others that are not arrays. Operands that it holds for have the same literal
exactly if they are the same. -/
theorem folds_identity {a b : Value} (ha : a.Exact) (hb : b.Exact) :
    ∃ r : Bool, (binary .identical a b).Folds (.ok (.bool r))
      ∧ (binary .notIdentical a b).Folds (.ok (.bool !r))
      ∧ (r = true ↔ a.kind = b.kind ∧ Value.Alike a b)
      ∧ (a = b → r = true)
      ∧ (a.isArray = false → r = true → a = b)
      ∧ (r = true → ∀ t, a.exported = .ok t → (b.exported = .ok t ↔ a = b)) := by
  have hiff := Value.identical_iff ha hb
  refine ⟨Value.identical a b, folds_ok_iff.mpr rfl, folds_ok_iff.mpr rfl, hiff, ?_, ?_, ?_⟩
  · rintro rfl
    exact hiff.mpr ⟨rfl, ha.alike⟩
  · intro hscalar htrue
    obtain ⟨hkind, halike⟩ := hiff.mp htrue
    exact halike.eq_of_scalar hkind hscalar
  · intro htrue t ht
    constructor
    · intro hu
      have hliteral : a.literal = b.literal :=
        (Value.literal_of_exported ht).trans (Value.literal_of_exported hu).symm
      have hapart := (hiff.mp htrue).2.toldApart ha hb
      exact (hapart [] [] (by rw [hliteral])).1
    · rintro rfl
      exact ht

/-- Lists of a truth value and of the integer that it counts as: they are taken for identical, and
have different literals. -/
theorem folds_identity_nested :
    (Value.list [.int 1]).Exact ∧ (Value.list [.bool true]).Exact
      ∧ (binary .identical (.list [.int 1]) (.list [.bool true])).Folds (.ok (.bool true))
      ∧ (Value.list [.int 1]).exported = .ok (Text.ofString "[1]")
      ∧ (Value.list [.bool true]).exported ≠ .ok (Text.ofString "[1]") := by
  have hleft : (Value.list [.int 1]).Exact := .list (List.forall_mem_singleton.mpr (.int 1))
  have hright : (Value.list [.bool true]).Exact := .list (List.forall_mem_singleton.mpr (.bool true))
  obtain ⟨r, hfolds, -, hiff, -, -, hexport⟩ := folds_identity hleft hright
  have halike : Value.Alike (.list [.int 1]) (.list [.bool true]) := by
    refine .list rfl fun i v w hv hw => ?_
    obtain ⟨hi, rfl⟩ := List.getElem?_eq_some_iff.mp hv
    obtain ⟨hj, rfl⟩ := List.getElem?_eq_some_iff.mp hw
    obtain rfl : i = 0 := Nat.lt_one_iff.mp hi
    exact .number (m := 1) rfl rfl
  obtain rfl : r = true := hiff.mpr ⟨rfl, halike⟩
  have hliteral : (Value.list [.int 1]).exported = .ok (Text.ofString "[1]") :=
    if_pos (by decide +kernel)
  refine ⟨hleft, hright, hfolds, hliteral, fun h => ?_⟩
  have hsame := (hexport rfl _ hliteral).mp h
  cases hsame

end Operation

end StaticReflection
