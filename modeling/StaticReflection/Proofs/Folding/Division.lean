import StaticReflection.Proofs.Decimal.Overflow
import StaticReflection.Proofs.Folding.Operation

/-!
# Quotients and remainders

Integers divide in two ways. `%` gives the remainder of the division that rounds towards zero
(`Value.modulo_int`). `/` gives an integer only when nothing is left (`Value.divide_of_dvd`), and
otherwise the nearest double, which a quotient of 64-bit integers always has
(`Value.divide_of_not_dvd`).

> `Operation.folds_division`: without its remainder a dividend divides evenly, into the quotient
> rounded towards zero, and the two make up the dividend again; no step of that leaves the integers.

The least integer divided by minus one is no exception: the quotient `2 ^ 63` stays an integer, and
times the divisor it is the dividend again.
-/

namespace StaticReflection

namespace Value

/-- The remainder of the sizes, with the sign of the dividend, is that of truncated division. -/
theorem signed_mod (a b : Int) :
    Binary64.signed (decide (a < 0)) (a.natAbs % b.natAbs) = a.tmod b := by
  have hsize := Int.natAbs_tmod a b
  unfold Binary64.signed
  by_cases ha : a < 0
  · have hle : 0 ≤ (-a).tmod b := Int.tmod_nonneg b (by omega)
    rw [Int.neg_tmod] at hle
    rw [decide_eq_true ha, if_pos rfl]
    omega
  · have hle : 0 ≤ a.tmod b := Int.tmod_nonneg b (by omega)
    rw [decide_eq_false ha, if_neg Bool.false_ne_true]
    omega

theorem modulo_int (a : Int) {b : Int} (hb : b ≠ 0) :
    modulo (.int a) (.int b) = .ok (.int (a.tmod b)) := by
  have hstep : modulo (.int a) (.int b)
      = if b = 0 then Outcome.unfoldable .moduloByZero
        else .ok (.int (Binary64.signed (decide (a < 0)) (a.natAbs % b.natAbs))) := rfl
  rw [hstep, if_neg hb, signed_mod]

theorem divide_int (a : Int) {b : Int} (hb : b ≠ 0) :
    divide (.int a) (.int b) = if a % b = 0 then .ok (.int (a / b))
      else match Binary64.ofRatio? (decide (a < 0) != decide (b < 0)) a.natAbs b.natAbs with
        | some q => .ok (.float q)
        | none => Outcome.fault .quotientTooLarge := by
  have hstep : divide (.int a) (.int b) = if (b == 0) = true then Outcome.unfoldable .divisionByZero
      else if a % b = 0 then .ok (.int (a / b))
      else match Binary64.ofRatio? (decide (a < 0) != decide (b < 0)) a.natAbs b.natAbs with
        | some q => .ok (.float q)
        | none => Outcome.fault .quotientTooLarge := rfl
  have hzero : ¬(b == 0) = true := by
    rw [beq_iff_eq]
    exact hb
  rw [hstep, if_neg hzero]

theorem divide_of_dvd {a b : Int} (hb : b ≠ 0) (h : b ∣ a) :
    divide (.int a) (.int b) = .ok (.int (a.tdiv b)) := by
  rw [divide_int a hb, if_pos (Int.emod_eq_zero_of_dvd h), Int.tdiv_eq_ediv_of_dvd h]

/-- Of an integer of 64 bits every quotient has a nearest double. -/
theorem divide_of_not_dvd {a b : Int} (ha : fitsInt a = true) (hb : b ≠ 0) (h : ¬b ∣ a) :
    ∃ x, divide (.int a) (.int b) = .ok (.float x) := by
  have hrange := fitsInt_iff.mp ha
  have hzero : a.natAbs ≠ 0 := by
    intro h0
    exact h (Int.natAbs_eq_zero.mp h0 ▸ Int.dvd_zero b)
  have hlog : a.natAbs.log2 < 64 := (Nat.log2_lt hzero).mpr (by omega)
  rw [divide_int a hb, if_neg fun h0 => h (Int.dvd_of_emod_eq_zero h0)]
  cases hratio : Binary64.ofRatio? (decide (a < 0) != decide (b < 0)) a.natAbs b.natAbs with
  | some q => exact ⟨q, rfl⟩
  | none => exact (Binary64.ofRatio?_isSome (by omega) hratio).elim

/-- Arithmetic on integers whose result fits stays with integers. -/
theorem arithmetic_int {f : Int → Int → Int} {g : Float → Float → Float} {m n k : Int}
    (h : f m n = k) (hk : fitsInt k = true) :
    arithmetic f g (.int m) (.int n) = .ok (.int k) := by
  subst h
  exact if_pos hk

/-- A dividend without its remainder is no larger than the dividend. -/
theorem fitsInt_sub_tmod {a : Int} (ha : fitsInt a = true) (b : Int) :
    fitsInt (a - a.tmod b) = true := by
  have hrange := fitsInt_iff.mp ha
  have hsize := Nat.mod_le a.natAbs b.natAbs
  rw [← signed_mod, fitsInt_iff]
  unfold Binary64.signed
  by_cases hneg : a < 0
  · rw [decide_eq_true hneg, if_pos rfl]
    omega
  · rw [decide_eq_false hneg, if_neg Bool.false_ne_true]
    omega

end Value

namespace Operation

/-- The remainder of a division is smaller than the divisor and has the sign of the dividend. Taken
off the dividend it leaves a multiple of the divisor, whose quotient is that of the dividend rounded
towards zero; the divisor times this and the remainder are the dividend again. The quotient of the
dividend itself is an integer only without a remainder, and a double otherwise. Nothing is divided
by zero. -/
theorem folds_division {a b : Int} (ha : fitsInt a = true) (hb : fitsInt b = true) :
    (b ≠ 0 → ∃ r : Int,
        (binary .modulo (.int a) (.int b)).Folds (.ok (.int r))
        ∧ r.natAbs < b.natAbs ∧ (r = 0 ∨ r.sign = a.sign)
        ∧ (binary .subtract (.int a) (.int r)).Folds (.ok (.int (a - r)))
        ∧ (binary .divide (.int (a - r)) (.int b)).Folds (.ok (.int (a.tdiv b)))
        ∧ (binary .multiply (.int (a.tdiv b)) (.int b)).Folds (.ok (.int (a - r)))
        ∧ (binary .add (.int (a - r)) (.int r)).Folds (.ok (.int a))
        ∧ ((∃ q, (binary .divide (.int a) (.int b)).Folds (.ok (.int q))) ↔ r = 0)
        ∧ (r ≠ 0 → ∃ x, (binary .divide (.int a) (.int b)).Folds (.ok (.float x))))
      ∧ (b = 0 →
        (binary .divide (.int a) (.int b)).Folds (Outcome.unfoldable .divisionByZero)
        ∧ (binary .modulo (.int a) (.int b)).Folds (Outcome.unfoldable .moduloByZero)) := by
  constructor
  · intro hne
    have hsub : a - a.tmod b = b * a.tdiv b := by
      have hsum := Int.mul_tdiv_add_tmod a b
      omega
    have hfits : fitsInt (a - a.tmod b) = true := Value.fitsInt_sub_tmod ha b
    have hquotient : (a - a.tmod b).tdiv b = a.tdiv b := by
      rw [hsub, Int.mul_tdiv_cancel_left _ hne]
    have hproduct : a.tdiv b * b = a - a.tmod b := by
      rw [hsub, Int.mul_comm]
    have hnone : b ∣ a ↔ a.tmod b = 0 := Int.dvd_iff_tmod_eq_zero
    refine ⟨a.tmod b, folds_ok_iff.mpr (Value.modulo_int a hne), ?_, ?_, ?_, ?_, ?_, ?_, ?_, ?_⟩
    · rw [Int.natAbs_tmod]
      exact Nat.mod_lt _ (Int.natAbs_pos.mpr hne)
    · by_cases hdvd : b ∣ a
      · exact .inl (hnone.mp hdvd)
      · refine .inr ?_
        rw [Int.sign_tmod, if_neg hdvd]
    · exact folds_ok_iff.mpr (Value.arithmetic_int rfl hfits)
    · have hdvd : b ∣ a - a.tmod b := ⟨_, hsub⟩
      have hvalue := Value.divide_of_dvd hne hdvd
      rw [hquotient] at hvalue
      exact folds_ok_iff.mpr hvalue
    · exact folds_ok_iff.mpr (Value.arithmetic_int hproduct hfits)
    · exact folds_ok_iff.mpr (Value.arithmetic_int (Int.sub_add_cancel a _) ha)
    · constructor
      · intro h
        obtain ⟨q, hq⟩ := h
        refine Decidable.byContradiction fun hr => ?_
        obtain ⟨x, hx⟩ := Value.divide_of_not_dvd ha hne (mt hnone.mp hr)
        have hvalue : Value.divide (.int a) (.int b) = .ok (.int q) := folds_ok_iff.mp hq
        rw [hx] at hvalue
        cases hvalue
      · intro hr
        exact ⟨_, folds_ok_iff.mpr (Value.divide_of_dvd hne (hnone.mpr hr))⟩
    · intro hr
      obtain ⟨x, hx⟩ := Value.divide_of_not_dvd ha hne (mt hnone.mp hr)
      exact ⟨x, folds_ok_iff.mpr hx⟩
  · intro hzero
    subst hzero
    exact ⟨folds_unfoldable rfl, folds_unfoldable rfl⟩

/-- The least integer divided by minus one is beyond 64 bits, and nothing is left of it. -/
theorem folds_division_least :
    fitsInt intMin = true ∧ fitsInt (-1) = true ∧ fitsInt 0 = true
      ∧ (binary .modulo (.int intMin) (.int (-1))).Folds (.ok (.int 0))
      ∧ (binary .divide (.int intMin) (.int (-1))).Folds (.ok (.int 0x8000000000000000))
      ∧ (binary .multiply (.int 0x8000000000000000) (.int (-1))).Folds (.ok (.int intMin))
      ∧ (binary .divide (.int intMin) (.int 0)).Folds (Outcome.unfoldable .divisionByZero)
      ∧ (binary .modulo (.int intMin) (.int 0)).Folds (Outcome.unfoldable .moduloByZero) := by
  have hmin : fitsInt intMin = true := by decide
  have hone : fitsInt (-1) = true := by decide
  have hzero : fitsInt 0 = true := by decide
  obtain ⟨r, hmodulo, hlt, -, -, hdivide, hmultiply, -⟩ :=
    (folds_division hmin hone).1 (by decide)
  have hr : r = 0 := by omega
  subst hr
  exact ⟨hmin, hone, hzero, hmodulo, hdivide, hmultiply, (folds_division hmin hzero).2 rfl⟩

end Operation

end StaticReflection
