import StaticReflection.Proofs.Folding.Operation
import StaticReflection.Proofs.Value.Ordering

/-!
# Comparison operators

The comparison operators on two exact values fold, or do not fold, together: they have a value
exactly if the operands have an ordering, which alone says what it is (`Value.apply_compare`,
`Value.apply_spaceship`).

> `Operation.folds_comparisons`: `<=>` has a value exactly if the other comparisons have, and
> exactly if it has one with the operands turned around; its sign says which of them hold; and what
> is less than something less is less.

Equality has a value for all operands, also for those that have no order: two maps may be equal.
-/

namespace StaticReflection

namespace Value

/-- The sign of an ordering. -/
def signOf : Ordering → Int
  | .lt => -1
  | .eq => 0
  | .gt => 1

theorem signOf_swap (o : Ordering) : signOf o.swap = -signOf o := by
  cases o <;> rfl

variable {a b : Value} {o : Ordering}

theorem compareValues_of_order? (ha : a.Exact) (hb : b.Exact) (h : order? a b = some o)
    (r : Comparison) : compareValues r a b = .ok (r.holds o) := by
  have hvalue := compareValues_eq ha hb r
  rw [h] at hvalue
  cases hcompare : compareValues r a b with
  | ok holds =>
    rw [hcompare] at hvalue
    exact congrArg Except.ok (Option.some.inj hvalue)
  | error f =>
    rw [hcompare] at hvalue
    cases hvalue

theorem compareValues_of_none (ha : a.Exact) (hb : b.Exact) (h : order? a b = none)
    (r : Comparison) : ∃ f, compareValues r a b = .error f := by
  have hvalue := compareValues_eq ha hb r
  rw [h] at hvalue
  cases hcompare : compareValues r a b with
  | ok holds =>
    rw [hcompare] at hvalue
    cases hvalue
  | error f => exact ⟨f, rfl⟩

theorem apply_compare (ha : a.Exact) (hb : b.Exact) (h : order? a b = some o) (r : Comparison) :
    apply (.compare r) a b = .ok (.bool (r.holds o)) := by
  rw [apply, compareValues_of_order? ha hb h]
  rfl

theorem apply_spaceship (ha : a.Exact) (hb : b.Exact) (h : order? a b = some o) :
    apply .spaceship a b = .ok (.int (signOf o)) := by
  rw [apply, spaceship, compareValues_of_order? ha hb h, compareValues_of_order? ha hb h]
  cases o <;> rfl

/-- Comparisons have a value exactly if the operands have an ordering. -/
theorem apply_compare_ok_iff (ha : a.Exact) (hb : b.Exact) (r : Comparison) :
    (∃ v, apply (.compare r) a b = .ok v) ↔ ∃ o, order? a b = some o := by
  constructor
  · rintro ⟨v, hv⟩
    cases ho : order? a b with
    | some o => exact ⟨o, rfl⟩
    | none =>
      obtain ⟨f, hf⟩ := compareValues_of_none ha hb ho r
      rw [apply, hf] at hv
      cases hv
  · rintro ⟨o, ho⟩
    exact ⟨_, apply_compare ha hb ho r⟩

theorem apply_spaceship_ok_iff (ha : a.Exact) (hb : b.Exact) :
    (∃ v, apply .spaceship a b = .ok v) ↔ ∃ o, order? a b = some o := by
  constructor
  · rintro ⟨v, hv⟩
    cases ho : order? a b with
    | some o => exact ⟨o, rfl⟩
    | none =>
      obtain ⟨f, hf⟩ := compareValues_of_none ha hb ho .greater
      rw [apply, spaceship, hf] at hv
      cases hv
  · rintro ⟨o, ho⟩
    exact ⟨_, apply_spaceship ha hb ho⟩

/-- What is less has the ordering of what is less. -/
theorem order?_of_less (ha : a.Exact) (hb : b.Exact)
    (h : apply (.compare .less) a b = .ok (.bool true)) : order? a b = some .lt := by
  obtain ⟨o, ho⟩ := (apply_compare_ok_iff ha hb .less).mp ⟨_, h⟩
  rw [apply_compare ha hb ho] at h
  cases o with
  | lt => exact ho
  | _ => cases h

end Value

namespace Operation

/-- The operation folds to the truth of a statement. -/
def FoldsToTruth (x : Operation) (p : Prop) [Decidable p] : Prop := x.Folds (.ok (.bool (decide p)))

/-- The comparison operators on values without doubles agree. `<=>` has a value exactly if any other
of them has, and exactly if it has one with the operands turned around. Its value is a sign: `-1`
exactly if the left operand is less, `0` exactly if both are equal, `1` exactly if the left one is
greater; `<=` and `>=` hold where `<` or `>` does and where `==` does, and the operands turned around
have the negative sign. What is less than something less is less. -/
theorem folds_comparisons {a b c : Value} (ha : a.Exact) (hb : b.Exact) (hc : c.Exact) :
    (∀ r, (∃ v, (binary .spaceship a b).Folds (.ok v))
        ↔ ∃ v, (binary (.compare r) a b).Folds (.ok v))
      ∧ ((∃ v, (binary .spaceship a b).Folds (.ok v))
        ↔ ∃ v, (binary .spaceship b a).Folds (.ok v))
      ∧ (∀ v, (binary .spaceship a b).Folds (.ok v) →
        ∃ n : Int, v = .int n ∧ (n = -1 ∨ n = 0 ∨ n = 1)
          ∧ (binary (.compare .less) a b).FoldsToTruth (n = -1)
          ∧ (binary .equal a b).FoldsToTruth (n = 0)
          ∧ (binary (.compare .greater) a b).FoldsToTruth (n = 1)
          ∧ (binary (.compare .lessOrEqual) a b).FoldsToTruth (n = -1 ∨ n = 0)
          ∧ (binary (.compare .greaterOrEqual) a b).FoldsToTruth (n = 1 ∨ n = 0)
          ∧ (binary .spaceship b a).Folds (.ok (.int (-n))))
      ∧ ((binary (.compare .less) a b).FoldsToTruth True →
        (binary (.compare .less) b c).FoldsToTruth True →
        (binary (.compare .less) a c).FoldsToTruth True) := by
  have hturned : (∃ o, Value.order? a b = some o) ↔ ∃ o, Value.order? b a = some o := by
    rw [Value.order?_swap ha hb]
    constructor
    · rintro ⟨o, ho⟩
      exact ⟨o.swap, by rw [ho]; rfl⟩
    · rintro ⟨p, hp⟩
      obtain ⟨o, ho, -⟩ := Option.map_eq_some_iff.mp hp
      exact ⟨o, ho⟩
  simp only [FoldsToTruth, folds_ok_iff]
  refine ⟨fun r => ?_, ?_, fun v hv => ?_, fun hab hbc => ?_⟩
  · exact (Value.apply_spaceship_ok_iff ha hb).trans (Value.apply_compare_ok_iff ha hb r).symm
  · exact (Value.apply_spaceship_ok_iff ha hb).trans
      (hturned.trans (Value.apply_spaceship_ok_iff hb ha).symm)
  · obtain ⟨o, ho⟩ := (Value.apply_spaceship_ok_iff ha hb).mp ⟨v, hv⟩
    rw [Value.apply_spaceship ha hb ho] at hv
    have hequal : Value.eq a b = decide (o = .eq) := by
      rw [Bool.eq_iff_iff, decide_eq_true_eq]
      exact (Value.order?_eq_iff ha hb ho).symm
    have hback : Value.order? b a = some o.swap := by
      rw [Value.order?_swap ha hb, ho]
      rfl
    have happly : Value.apply .equal a b = .ok (.bool (decide (o = .eq))) := by
      rw [Value.apply, hequal]
    refine ⟨Value.signOf o, (Except.ok.inj hv).symm, ?_⟩
    rw [happly, Value.apply_spaceship hb ha hback, Value.signOf_swap]
    rw [Value.apply_compare ha hb ho, Value.apply_compare ha hb ho, Value.apply_compare ha hb ho,
      Value.apply_compare ha hb ho]
    cases o with
    | _ => exact ⟨by decide, rfl, rfl, rfl, rfl, rfl, rfl⟩
  · have hless : Value.order? a c = some .lt :=
      Value.order?_trans ha hb hc (Value.order?_of_less ha hb hab) (Value.order?_of_less hb hc hbc)
    exact Value.apply_compare ha hc hless .less

/-- Lists that begin with a truth value or the integer that it counts as, the longer ones greater:
the first items are equal, and then the next decide. -/
theorem folds_comparisons_mixed :
    (Value.list [.bool true, .int 1]).Exact ∧ (Value.list [.int 1, .int 2]).Exact
      ∧ (Value.list [.bool true, .int 2, .null]).Exact
      ∧ (binary .spaceship (.list [.bool true, .int 1]) (.list [.int 1, .int 2])).Folds
        (.ok (.int (-1)))
      ∧ (binary .spaceship (.list [.int 1, .int 2]) (.list [.bool true, .int 1])).Folds (.ok (.int 1))
      ∧ (binary (.compare .less) (.list [.bool true, .int 1])
        (.list [.bool true, .int 2, .null])).FoldsToTruth True := by
  have hfirst : (Value.list [.bool true, .int 1]).Exact :=
    .list (List.forall_mem_cons.mpr ⟨.bool true, List.forall_mem_singleton.mpr (.int 1)⟩)
  have hsecond : (Value.list [.int 1, .int 2]).Exact :=
    .list (List.forall_mem_cons.mpr ⟨.int 1, List.forall_mem_singleton.mpr (.int 2)⟩)
  have hthird : (Value.list [.bool true, .int 2, .null]).Exact :=
    .list (List.forall_mem_cons.mpr ⟨.bool true,
      List.forall_mem_cons.mpr ⟨.int 2, List.forall_mem_singleton.mpr .null⟩⟩)
  obtain ⟨-, -, hsign, htrans⟩ := folds_comparisons hfirst hsecond hthird
  have hvalue : (binary .spaceship (.list [.bool true, .int 1]) (.list [.int 1, .int 2])).Folds
      (.ok (.int (-1))) := folds_ok_iff.mpr rfl
  obtain ⟨n, hn, -, -, -, -, -, -, hback⟩ := hsign _ hvalue
  obtain rfl : (-1 : Int) = n := Value.int.inj hn
  exact ⟨hfirst, hsecond, hthird, hvalue, hback,
    htrans (folds_ok_iff.mpr rfl) (folds_ok_iff.mpr rfl)⟩

end Operation

end StaticReflection
