import StaticReflection.Decimal.Binary64

/-!
# Integers too large for a double

Rounding an integer to a double fails only at the upper end of the range: from the
middle between the greatest double, `2 ^ 1024 - 2 ^ 971`, and `2 ^ 1024` on, in
either sign. `ofInt?_eq_none_iff` is that bound, exactly. Below `2 ^ 1023` the
exponent alone is small enough; from `2 ^ 1024` on it is too large; between the two
the mantissa decides, which must not round up to `2 ^ 53`.
-/

namespace StaticReflection.Binary64

/-- The least natural number that is too large for a double. -/
def overflow : Nat := (2 * (2 * fractions) - 1) * Nat.pow 2 970

theorem fractions_eq : fractions = Nat.pow 2 52 := rfl

/-- A power of two times another, with the exponents added. -/
theorem pow_mul_pow {a b c : Nat} (h : a + b = c) : Nat.pow 2 a * Nat.pow 2 b = Nat.pow 2 c :=
  h ▸ (Nat.pow_add 2 a b).symm

theorem fractions_mul_pow (k : Nat) : 2 * fractions * Nat.pow 2 k = Nat.pow 2 (k + 53) := by
  rw [show 2 * fractions = Nat.pow 2 53 from rfl]
  exact pow_mul_pow (Nat.add_comm ..)

theorem log2_le_self {num : Nat} (h : num ≠ 0) : Nat.pow 2 num.log2 ≤ num := Nat.log2_self_le h

theorem lt_pow_log2 (num : Nat) : num < Nat.pow 2 (num.log2 + 1) := Nat.lt_log2_self

/-- The quotient by one has its bits from the highest bit of the number down. -/
theorem unitExponent_one {num : Nat} (h : num ≠ 0) :
    unitExponent num 1 = (num.log2 : Int) - 52 := by
  have hlow := log2_le_self h
  have hfr : 2 * fractions = Nat.pow 2 53 := rfl
  have hlog : Nat.log2 1 = 0 := by decide
  unfold unitExponent
  simp only [hlog, Int.ofNat_eq_natCast]
  have hwide : (if (0 : Int) ≤ (num.log2 : Int) - (0 : Nat) - 53 then
      decide (1 * Nat.pow 2 ((num.log2 : Int) - (0 : Nat) - 53).toNat * (2 * fractions) ≤ num)
      else decide (1 * (2 * fractions)
        ≤ num * Nat.pow 2 (-((num.log2 : Int) - (0 : Nat) - 53)).toNat)) = true := by
    split
    next hle =>
      rw [hfr, Nat.one_mul, pow_mul_pow (by omega : _ + 53 = num.log2)]
      exact decide_eq_true hlow
    next hlt =>
      rw [hfr, Nat.one_mul]
      refine decide_eq_true (Nat.le_trans (Nat.le_of_eq ?_) (Nat.mul_le_mul_right _ hlow))
      exact (pow_mul_pow (by omega)).symm
  rw [hwide, if_pos rfl]
  omega

/-- A full mantissa counts as the next power of two. -/
theorem ofUnits?_top {negative : Bool} {e : Int} :
    ofUnits? negative (2 * fractions) e
      = if 2047 ≤ (e + 1 + 1075).toNat then none
        else some (assemble negative (e + 1 + 1075).toNat (fractions - fractions)) := by
  unfold ofUnits?
  rw [if_neg (by decide), if_pos rfl]

theorem ofUnits?_below {negative : Bool} {m : Nat} {e : Int} (hm : fractions ≤ m)
    (htop : m ≠ 2 * fractions) :
    ofUnits? negative m e
      = if 2047 ≤ (e + 1075).toNat then none
        else some (assemble negative (e + 1075).toNat (m - fractions)) := by
  unfold ofUnits?
  rw [if_neg (by omega), if_neg htop]

theorem ofUnits?_small {negative : Bool} {m : Nat} {e : Int} (hm : m < fractions) :
    ofUnits? negative m e = some (assemble negative 0 m) := by
  unfold ofUnits?
  rw [if_pos hm]

/-- With a small exponent there is a double, whatever the mantissa. -/
theorem ofUnits?_isSome {negative : Bool} {m : Nat} {e : Int} (h : e ≤ 970) :
    ofUnits? negative m e ≠ none := by
  rcases Nat.lt_or_ge m fractions with hm | hm
  · rw [ofUnits?_small hm]; exact Option.some_ne_none _
  · by_cases htop : m = 2 * fractions
    · rw [htop, ofUnits?_top, if_neg (by omega)]; exact Option.some_ne_none _
    · rw [ofUnits?_below hm htop, if_neg (by omega)]; exact Option.some_ne_none _

/-- At the greatest exponent only the mantissa `2 ^ 53` is out of range. -/
theorem ofUnits?_last {negative : Bool} {m : Nat} :
    ofUnits? negative m 971 = none ↔ m = 2 * fractions := by
  constructor
  · intro h
    refine Decidable.byContradiction fun htop => ?_
    rcases Nat.lt_or_ge m fractions with hm | hm
    · rw [ofUnits?_small hm] at h; cases h
    · rw [ofUnits?_below hm htop, if_neg (by decide)] at h; cases h
  · intro h
    rw [h, ofUnits?_top, if_pos (by decide)]

/-- With a large exponent and a full mantissa there is no double. -/
theorem ofUnits?_eq_none {negative : Bool} {m : Nat} {e : Int} (he : 972 ≤ e)
    (hm : fractions ≤ m) : ofUnits? negative m e = none := by
  by_cases htop : m = 2 * fractions
  · rw [htop, ofUnits?_top, if_pos (by omega)]
  · rw [ofUnits?_below hm htop, if_pos (by omega)]

theorem unitExponent_le (num den : Nat) :
    unitExponent num den ≤ max ((num.log2 : Int) - den.log2 - 52) (-1074) := by
  have hstep (wide : Bool) (e : Int) : (if wide then e + 1 else e) ≤ e + 1 := by
    cases wide with
    | true => exact Int.le_refl _
    | false => exact Int.le_add_of_nonneg_right (by decide)
  refine Int.max_le.mpr ⟨Int.le_trans (hstep _ _) ?_, ?_⟩
  · simp only [Int.ofNat_eq_natCast]
    omega
  · exact Int.le_max_right ..

/-- A quotient of numbers of moderate size has a nearest double, whatever the divisor. -/
theorem ofRatio?_isSome {negative : Bool} {num den : Nat} (h : num.log2 ≤ 1022) :
    ofRatio? negative num den ≠ none := by
  unfold ofRatio?
  split
  · exact Option.some_ne_none _
  · have hle := unitExponent_le num den
    exact ofUnits?_isSome (by omega)

theorem le_roundQuotient (num den : Nat) : num / den ≤ roundQuotient num den := by
  unfold roundQuotient
  simp only
  split
  · exact Nat.le_refl _
  · split
    · exact Nat.le_succ _
    · split
      · exact Nat.le_refl _
      · exact Nat.le_succ _

/-- Rounding reaches an even number from the middle below it on. -/
theorem roundQuotient_eq_iff {num half top : Nat} (hhalf : 0 < half) (htop : 0 < top)
    (heven : top % 2 = 0) (hlt : num < top * (2 * half)) :
    roundQuotient num (2 * half) = top ↔ (2 * top - 1) * half ≤ num := by
  have hpos : 0 < 2 * half := by omega
  have hq : num / (2 * half) < top := (Nat.div_lt_iff_lt_mul hpos).mpr hlt
  have hdm := Nat.div_add_mod num (2 * half)
  have hr := Nat.mod_lt num hpos
  -- the product that `omega` cannot see into, for the last quotient below `top`
  have hprod (h : num / (2 * half) = top - 1) :
      2 * half * (num / (2 * half)) + half = (2 * top - 1) * half := by
    obtain ⟨t, rfl⟩ : ∃ t, top = t + 1 := ⟨top - 1, by omega⟩
    rw [h, show 2 * (t + 1) - 1 = 2 * t + 1 by omega, Nat.add_sub_cancel, Nat.add_mul,
      Nat.one_mul, Nat.mul_right_comm]
  constructor
  · intro h
    have hlast : num / (2 * half) = top - 1 ∧ half ≤ num % (2 * half) := by
      unfold roundQuotient at h
      simp only at h
      split at h
      · omega
      · split at h
        · omega
        · split at h <;> omega
    have := hprod hlast.1
    omega
  · intro h
    have hge : top - 1 ≤ num / (2 * half) := by
      refine (Nat.le_div_iff_mul_le hpos).mpr (Nat.le_trans ?_ h)
      rw [← Nat.mul_assoc]
      exact Nat.mul_le_mul_right _ (by omega)
    have hlast : num / (2 * half) = top - 1 := by omega
    have := hprod hlast
    unfold roundQuotient
    simp only
    rw [if_neg (by omega)]
    split
    · omega
    · rw [if_neg (by omega)]
      omega

/-- A natural number has a nearest double if and only if it is below the bound. -/
theorem ofRatio?_one_eq_none_iff {negative : Bool} {num : Nat} :
    ofRatio? negative num 1 = none ↔ overflow ≤ num := by
  -- a variable for the exponent keeps the powers from being written out
  obtain ⟨k, hk⟩ : ∃ k, k = 970 := ⟨_, rfl⟩
  have hbound : overflow = (2 * (2 * fractions) - 1) * Nat.pow 2 k := by rw [overflow, ← hk]
  have hpos : 0 < Nat.pow 2 k := Nat.pow_pos (by decide)
  have hmid : 2 * fractions * Nat.pow 2 k = Nat.pow 2 (k + 53) := fractions_mul_pow k
  have htop : Nat.pow 2 (k + 54) = 2 * (2 * fractions * Nat.pow 2 k) := by
    rw [hmid]
    exact Nat.pow_succ'
  have hover : overflow + Nat.pow 2 k = Nat.pow 2 (k + 54) := by
    rw [hbound, htop, Nat.sub_mul, Nat.one_mul, Nat.mul_assoc]
    have hle : 1 * Nat.pow 2 k ≤ 2 * fractions * Nat.pow 2 k :=
      Nat.mul_le_mul_right _ (by decide)
    omega
  have hhalf : Nat.pow 2 k ≤ Nat.pow 2 (k + 53) := Nat.pow_le_pow_right (by decide) (by omega)
  unfold ofRatio?
  by_cases h0 : num = 0
  · rw [if_pos h0]
    constructor
    · intro h; cases h
    · intro h; omega
  rw [if_neg h0, unitExponent_one h0]
  simp only
  have hlow := log2_le_self h0
  have hhigh := lt_pow_log2 num
  rcases Nat.lt_trichotomy num.log2 (k + 53) with hlog | hlog | hlog
  · -- the exponent is small
    have hnum : num < Nat.pow 2 (k + 53) :=
      Nat.lt_of_lt_of_le hhigh (Nat.pow_le_pow_right (by decide) (by omega))
    constructor
    · intro h
      exact absurd h (ofUnits?_isSome (by omega))
    · intro h; omega
  · -- the mantissa decides
    rw [hlog] at hhigh hlow ⊢
    have he : ((k + 53 : Nat) : Int) - 52 = 971 := by omega
    rw [he, ofUnits?_last]
    unfold roundAt
    have hden : Nat.pow 2 (Int.toNat 971) = 2 * Nat.pow 2 k := by
      rw [show Int.toNat 971 = k + 1 by omega]
      exact Nat.pow_succ'
    rw [if_pos (by decide), Nat.one_mul, hden, hbound]
    refine roundQuotient_eq_iff hpos (by decide) (by decide) ?_
    rw [Nat.mul_left_comm, ← htop]
    exact hhigh
  · -- the exponent is large
    have hnum : Nat.pow 2 (k + 54) ≤ num :=
      Nat.le_trans (Nat.pow_le_pow_right (by decide) (by omega)) hlow
    constructor
    · intro _; omega
    · intro _
      refine ofUnits?_eq_none (by omega) ?_
      unfold roundAt
      rw [if_pos (by omega), Nat.one_mul]
      refine Nat.le_trans ?_ (le_roundQuotient ..)
      refine (Nat.le_div_iff_mul_le (Nat.pow_pos (by decide))).mpr (Nat.le_trans ?_ hlow)
      rw [fractions_eq]
      exact Nat.le_of_eq (pow_mul_pow (by omega))

/-- The bound is far beyond 64 bits. -/
theorem lt_overflow : 0x8000000000000000 < overflow := by
  obtain ⟨k, hk⟩ : ∃ k, k = 970 := ⟨_, rfl⟩
  have hpow : Nat.pow 2 10 ≤ Nat.pow 2 k := Nat.pow_le_pow_right (by decide) (by omega)
  rw [overflow, ← hk]
  exact Nat.lt_of_lt_of_le (by decide) (Nat.mul_le_mul_left _ hpow)

/-- An integer has a nearest double if and only if its size is below the bound. -/
theorem ofInt?_eq_none_iff {n : Int} : ofInt? n = none ↔ overflow ≤ n.natAbs :=
  ofRatio?_one_eq_none_iff

end StaticReflection.Binary64
