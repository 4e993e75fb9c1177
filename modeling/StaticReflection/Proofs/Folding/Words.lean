import Mathlib.Data.Int.ModEq
import Mathlib.Data.Rat.Floor
import StaticReflection.Proofs.Folding.Operation
import StaticReflection.Proofs.Value.Faults

/-!
# Operators on words

Integers of 64 bits are signed words, and the operators on bits treat them so, although integers
have no width of their own: a shift to the left is cut back to 64 bits (`Value.shiftLeft_int`), a
shift to the right rounds down whatever the count (`Value.shiftRight_int`), and the operators on
patterns are those of 64 bits (`Value.bitwise_int`, `Value.complement_int`).

> `Operation.folds_words`: the shifts, `&`, `|`, `^` and `~` on integers of 64 bits fold to the
> integers of 64 bits that they are on words; two shifts in one direction are one by the sum of the
> counts, and a negative count has no value.
-/

namespace StaticReflection

open Outcome

namespace Value

theorem dvd_shifted (x : Int) {n : Nat} (h : 64 ≤ n) : (2 ^ 64 : Int) ∣ x * 2 ^ n :=
  Dvd.dvd.mul_left (pow_dvd_pow 2 h) x

theorem shiftLeft_int (x : Int) (n : Nat) :
    shiftLeft (.int x) (.int n) = .ok (.int (Int.bmod (x * 2 ^ n) (2 ^ 64))) := by
  have hsign : ¬(n : Int) < 0 := by omega
  have hstep : shiftLeft (.int x) (.int n)
      = if (n : Int) < 0 then Outcome.unfoldable .negativeShift
        else if 64 ≤ (n : Int) then .ok (.int 0)
        else .ok (.int (Int.bmod (x * Nat.pow 2 n) (2 ^ 64))) := rfl
  rw [hstep, if_neg hsign]
  by_cases hn : 64 ≤ (n : Int)
  · -- all bits are out, which is what cutting the product back to 64 bits gives
    have hzero : Int.bmod (x * 2 ^ n) (2 ^ 64) = 0 :=
      Int.bmod_eq_zero_of_dvd (dvd_shifted x (by omega))
    rw [if_pos hn, hzero]
  · have hpow : ((Nat.pow 2 n : Nat) : Int) = 2 ^ n := Int.natCast_pow 2 n
    rw [if_neg hn, hpow]

/-- From 63 bits on a shift to the right leaves the sign. -/
theorem ediv_two_pow {x : Int} (hx : fitsInt x = true) {n : Nat} (hn : 63 ≤ n) :
    x / 2 ^ n = if x < 0 then -1 else 0 := by
  have hrange := fitsInt_iff.mp hx
  have hpow : (2 ^ 63 : Int) ≤ 2 ^ n := by
    exact_mod_cast Nat.pow_le_pow_right (by decide) hn
  by_cases hneg : x < 0
  · rw [if_pos hneg]
    exact Int.ediv_eq_neg_one_of_neg_of_le hneg (by omega)
  · rw [if_neg hneg]
    exact Int.ediv_eq_zero_of_lt (by omega) (by omega)

theorem shiftRight_int {x : Int} (hx : fitsInt x = true) (n : Nat) :
    shiftRight (.int x) (.int n) = .ok (.int (x / 2 ^ n)) := by
  have hsign : ¬(n : Int) < 0 := by omega
  have hstep : shiftRight (.int x) (.int n)
      = if (n : Int) < 0 then Outcome.unfoldable .negativeShift
        else .ok (.int (Int.fdiv x (Nat.pow 2 (min (n : Int) 63).toNat))) := rfl
  have hpow (k : Nat) : Int.fdiv x (Nat.pow 2 k) = x / 2 ^ k := by
    rw [Int.fdiv_eq_ediv_of_nonneg x (Int.natCast_nonneg _)]
    exact congrArg (x / ·) (Int.natCast_pow 2 k)
  rw [hstep, if_neg hsign, hpow]
  by_cases hn : 63 ≤ n
  · have hcount : (min (n : Int) 63).toNat = 63 := by omega
    rw [hcount, ediv_two_pow hx hn, ediv_two_pow hx (Nat.le_refl 63)]
  · have hcount : (min (n : Int) 63).toNat = n := by omega
    rw [hcount]

theorem bitwise_int {f : Nat → Nat → Nat} (op : (w : Nat) → BitVec w → BitVec w → BitVec w)
    (hf : ∀ w (x y : BitVec w), f x.toNat y.toNat = (op w x y).toNat)
    (hop : ∀ w (x y : BitVec 64), op w (x.signExtend w) (y.signExtend w) = (op 64 x y).signExtend w)
    {x y : Int} (hx : fitsInt x = true) (hy : fitsInt y = true) :
    bitwise f (.int x) (.int y)
      = .ok (.int (op 64 (BitVec.ofInt 64 x) (BitVec.ofInt 64 y)).toInt) := by
  have hvalue := ofPattern_bitwise op hf hop hx hy (w := patternWidth x y) (Nat.le_max_left ..)
  exact congrArg (fun n => Except.ok (int n)) hvalue

theorem complement_int {x : Int} (hx : fitsInt x = true) :
    applyUnary? "~" (.int x) = some (.ok (.int (~~~BitVec.ofInt 64 x).toInt)) := by
  have hrange := fitsInt_iff.mp hx
  have hnot : ~~~BitVec.ofInt 64 x = BitVec.ofInt 64 (-x - 1) := by
    rw [BitVec.not_eq_neg_add, BitVec.sub_eq_add_neg, Int.sub_eq_add_neg, BitVec.ofInt_add,
      BitVec.ofInt_neg]
    rfl
  have hvalue : (~~~BitVec.ofInt 64 x).toInt = -x - 1 := by
    rw [hnot]
    exact BitVec.toInt_ofInt_eq_self (by decide) (by omega) (by omega)
  rw [hvalue]
  rfl

/-- With a negative count neither shift has a value, whatever is shifted. -/
theorem shift_negative (v : Value) {w : Value} {k : Int} (hw : w.toInt = .ok k) (hk : k < 0) :
    ∃ reason, shiftLeft v w = Outcome.unfoldable reason
      ∧ shiftRight v w = Outcome.unfoldable reason := by
  unfold shiftLeft shiftRight
  cases hv : v.toInt with
  | ok m =>
    refine ⟨.negativeShift, ?_, ?_⟩
    · rw [ok_bind, hw, ok_bind, if_pos hk]
    · rw [ok_bind, hw, ok_bind, if_pos hk]
  | error f =>
    have hf := v.toInt_failsOnly f hv
    cases f with
    | unfoldable reason => exact ⟨reason, rfl, rfl⟩
    | _ => cases hf

end Value

namespace Operation

/-- The operation folds to an integer of 64 bits. -/
def FoldsToInt (x : Operation) (n : Int) : Prop := x.Folds (.ok (.int n)) ∧ fitsInt n = true

variable {x y : Int}

theorem shiftLeft_foldsToInt (x : Int) (n : Nat) :
    (binary .shiftLeft (.int x) (.int n)).FoldsToInt (Int.bmod (x * 2 ^ n) (2 ^ 64)) :=
  ⟨folds_ok_iff.mpr (Value.shiftLeft_int x n), Value.fitsInt_bmod _⟩

theorem shiftRight_foldsToInt (hx : fitsInt x = true) (n : Nat) :
    (binary .shiftRight (.int x) (.int n)).FoldsToInt (x / 2 ^ n) := by
  refine ⟨folds_ok_iff.mpr (Value.shiftRight_int hx n), Value.fitsInt_div hx ?_⟩
  -- only a divisor of minus one gives a quotient that does not fit
  intro h
  have hpos : (0 : Int) < 2 ^ n := Int.pow_pos (by decide)
  omega

theorem bitwise_foldsToInt {operator : BinaryOperator} {f : Nat → Nat → Nat}
    (op : (w : Nat) → BitVec w → BitVec w → BitVec w)
    (happly : Value.apply operator (.int x) (.int y) = Value.bitwise f (.int x) (.int y))
    (hf : ∀ w (x y : BitVec w), f x.toNat y.toNat = (op w x y).toNat)
    (hop : ∀ w (x y : BitVec 64), op w (x.signExtend w) (y.signExtend w) = (op 64 x y).signExtend w)
    (hx : fitsInt x = true) (hy : fitsInt y = true) :
    (binary operator (.int x) (.int y)).FoldsToInt
      (op 64 (BitVec.ofInt 64 x) (BitVec.ofInt 64 y)).toInt :=
  ⟨folds_ok_iff.mpr (happly.trans (Value.bitwise_int op hf hop hx hy)), Value.fitsInt_toInt _⟩

theorem complement_foldsToInt (hx : fitsInt x = true) :
    (unary "~" (.int x)).FoldsToInt (~~~BitVec.ofInt 64 x).toInt :=
  ⟨folds_unary (Value.complement_int hx), Value.fitsInt_toInt _⟩

/-- The operators on bits of integers of 64 bits fold to integers of 64 bits: a shift to the left
to the one that is `x * 2 ^ n` modulo `2 ^ 64`, a shift to the right to the floor of `x / 2 ^ n`,
and the others to what they are on two's complement patterns. So two shifts in one direction are one
by the sum of the counts. A negative count is reported, whatever is shifted. -/
theorem folds_words (hx : fitsInt x = true) (hy : fitsInt y = true) :
    (∀ n : Nat, ∃ r, (binary .shiftLeft (.int x) (.int n)).FoldsToInt r
        ∧ r ≡ x * 2 ^ n [ZMOD 2 ^ 64])
      ∧ (∀ n : Nat, (binary .shiftRight (.int x) (.int n)).FoldsToInt ⌊(x : ℚ) / 2 ^ n⌋)
      ∧ (binary .bitAnd (.int x) (.int y)).FoldsToInt
        (BitVec.ofInt 64 x &&& BitVec.ofInt 64 y).toInt
      ∧ (binary .bitOr (.int x) (.int y)).FoldsToInt
        (BitVec.ofInt 64 x ||| BitVec.ofInt 64 y).toInt
      ∧ (binary .bitXor (.int x) (.int y)).FoldsToInt
        (BitVec.ofInt 64 x ^^^ BitVec.ofInt 64 y).toInt
      ∧ (unary "~" (.int x)).FoldsToInt (~~~BitVec.ofInt 64 x).toInt
      ∧ (∀ a b : Nat, ∃ m r, (binary .shiftLeft (.int x) (.int a)).FoldsToInt m
        ∧ (binary .shiftLeft (.int m) (.int b)).FoldsToInt r
        ∧ (binary .shiftLeft (.int x) (.int (a + b : Nat))).FoldsToInt r)
      ∧ (∀ a b : Nat, ∃ m r, (binary .shiftRight (.int x) (.int a)).FoldsToInt m
        ∧ (binary .shiftRight (.int m) (.int b)).FoldsToInt r
        ∧ (binary .shiftRight (.int x) (.int (a + b : Nat))).FoldsToInt r)
      ∧ ∀ (v w : Value) (k : Int), w.toInt = .ok k → k < 0 →
        ∃ reason, (binary .shiftLeft v w).Folds (Outcome.unfoldable reason)
          ∧ (binary .shiftRight v w).Folds (Outcome.unfoldable reason) := by
  refine ⟨?_, ?_, ?_, ?_, ?_, complement_foldsToInt hx, ?_, ?_, ?_⟩
  · intro n
    exact ⟨_, shiftLeft_foldsToInt x n, Int.bmod_emod⟩
  · intro n
    have hfloor : ⌊(x : ℚ) / 2 ^ n⌋ = x / 2 ^ n := by
      have h := Rat.floor_intCast_div_natCast x (2 ^ n)
      push_cast at h
      exact h
    rw [hfloor]
    exact shiftRight_foldsToInt hx n
  · exact bitwise_foldsToInt (fun _ x y => x &&& y) rfl (fun _ x y => (BitVec.toNat_and x y).symm)
      (fun _ _ _ => BitVec.signExtend_and.symm) hx hy
  · exact bitwise_foldsToInt (fun _ x y => x ||| y) rfl (fun _ x y => (BitVec.toNat_or x y).symm)
      (fun _ _ _ => BitVec.signExtend_or.symm) hx hy
  · exact bitwise_foldsToInt (fun _ x y => x ^^^ y) rfl (fun _ x y => (BitVec.toNat_xor x y).symm)
      (fun _ _ _ => BitVec.signExtend_xor.symm) hx hy
  · intro a b
    have hboth : Int.bmod (Int.bmod (x * 2 ^ a) (2 ^ 64) * 2 ^ b) (2 ^ 64)
        = Int.bmod (x * 2 ^ (a + b)) (2 ^ 64) := by
      rw [Int.bmod_mul_bmod, Int.mul_assoc, Int.pow_add]
    refine ⟨_, _, shiftLeft_foldsToInt x a, shiftLeft_foldsToInt _ b, ?_⟩
    rw [hboth]
    exact shiftLeft_foldsToInt x (a + b)
  · intro a b
    have hboth : x / 2 ^ a / 2 ^ b = x / 2 ^ (a + b) := by
      rw [Int.ediv_ediv_of_nonneg (Int.pow_nonneg (by decide)), Int.pow_add]
    have hfirst := shiftRight_foldsToInt hx a
    refine ⟨_, _, hfirst, shiftRight_foldsToInt hfirst.2 b, ?_⟩
    rw [hboth]
    exact shiftRight_foldsToInt hx (a + b)
  · intro v w k hw hk
    obtain ⟨reason, hleft, hright⟩ := Value.shift_negative v hw hk
    exact ⟨reason, folds_unfoldable hleft, folds_unfoldable hright⟩

/-- The least integer loses its only bit to the left, and spreads it over the word to the right. -/
theorem folds_words_least :
    fitsInt intMin = true ∧ fitsInt (-1) = true
      ∧ (binary .shiftLeft (.int intMin) (.int 1)).FoldsToInt 0
      ∧ (binary .shiftRight (.int intMin) (.int 64)).FoldsToInt (-1)
      ∧ (binary .bitXor (.int intMin) (.int (-1))).FoldsToInt intMax
      ∧ (unary "~" (.int intMin)).FoldsToInt intMax
      ∧ ∃ reason, (binary .shiftLeft (.int intMin) (.int (-1))).Folds (Outcome.unfoldable reason)
        ∧ (binary .shiftRight (.int intMin) (.int (-1))).Folds (Outcome.unfoldable reason) := by
  have hmin : fitsInt intMin = true := by decide
  have hone : fitsInt (-1) = true := by decide
  obtain ⟨hleft, hright, -, -, hxor, hnot, -, -, hnegative⟩ := folds_words hmin hone
  refine ⟨hmin, hone, ?_, ?_, hxor, hnot, hnegative (.int intMin) (.int (-1)) (-1) rfl (by decide)⟩
  · obtain ⟨r, hr, hmod⟩ := hleft 1
    have hrange := Value.fitsInt_iff.mp hr.2
    have hmod : r % 2 ^ 64 = intMin * 2 ^ 1 % 2 ^ 64 := hmod
    have hzero : r = 0 := by
      unfold intMin at hmod
      omega
    exact hzero ▸ hr
  · have hfloor : ⌊(intMin : ℚ) / 2 ^ 64⌋ = -1 := by
      unfold intMin
      norm_num
    exact hfloor ▸ hright 64

end Operation

end StaticReflection
