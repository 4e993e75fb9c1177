import StaticReflection.Folding.Constants
import StaticReflection.Folding.Fold
import StaticReflection.Proofs.Value.Accumulator
import StaticReflection.Proofs.Value.Outcome

/-!
# Integers of 64 bits in values

`Value.fits` says that every integer in a value fits 64 bits, at any depth and among the
keys of arrays; the keys of a list are its positions. Most operators keep to that:

> `Value.apply_fits`: a binary operator on operands that fit has a result that fits,
> unless it is `intMin / -1`, or an operand is a text of a wider integer.

Such texts (`Value.IsWide`) are read as integers of any size, and only the results of
`+`, `-`, `*` and `**` are brought back into range.
-/

namespace StaticReflection

open Folding Outcome

/-- Whether a key fits 64 bits if it is an integer. -/
def Key.fits : Key → Bool
  | .int n => fitsInt n
  | .text _ => true

namespace Value

mutual

/-- Whether every integer in a value fits 64 bits. -/
def fits : Value → Bool
  | .int n => fitsInt n
  | .list items => decide ((items.length : Int) ≤ intMax + 1) && itemsFit items
  | .map entries => entriesFit entries
  | _ => true

/-- Whether every integer in some values fits 64 bits. -/
def itemsFit : List Value → Bool
  | [] => true
  | v :: rest => fits v && itemsFit rest

/-- Whether every integer in some entries fits 64 bits. -/
def entriesFit : List (Key × Value) → Bool
  | [] => true
  | (k, v) :: rest => k.fits && fits v && entriesFit rest

end

theorem itemsFit_iff {items : List Value} :
    itemsFit items = true ↔ ∀ v ∈ items, v.fits = true := by
  induction items with
  | nil => exact ⟨fun _ _ h => (by cases h), fun _ => rfl⟩
  | cons v rest ih => rw [itemsFit, Bool.and_eq_true, ih, List.forall_mem_cons]

theorem entriesFit_iff {entries : List (Key × Value)} :
    entriesFit entries = true ↔ ∀ e ∈ entries, e.1.fits = true ∧ e.2.fits = true := by
  induction entries with
  | nil => exact ⟨fun _ _ h => (by cases h), fun _ => rfl⟩
  | cons e rest ih =>
    obtain ⟨k, v⟩ := e
    rw [entriesFit, Bool.and_eq_true, Bool.and_eq_true, ih, List.forall_mem_cons]

theorem fitsInt_iff {n : Int} :
    fitsInt n = true ↔ -0x8000000000000000 ≤ n ∧ n ≤ 0x7fffffffffffffff := by
  unfold fitsInt intMin intMax
  rw [Bool.and_eq_true, decide_eq_true_eq, decide_eq_true_eq]

theorem fits_list_iff {items : List Value} : (Value.list items).fits = true
    ↔ (items.length : Int) ≤ intMax + 1 ∧ ∀ v ∈ items, v.fits = true := by
  rw [fits, Bool.and_eq_true, decide_eq_true_eq, itemsFit_iff]

theorem fits_map_iff {entries : List (Key × Value)} : (Value.map entries).fits = true
    ↔ ∀ e ∈ entries, e.1.fits = true ∧ e.2.fits = true := by
  rw [fits, entriesFit_iff]

/-- The entries of an array fit, those of a list with its positions as keys. -/
theorem fits_of_mem_entries {v : Value} {e : Key × Value} (h : v.fits = true)
    (he : e ∈ v.entries) : e.1.fits = true ∧ e.2.fits = true := by
  cases v with
  | list items =>
    obtain ⟨hlen, hitems⟩ := fits_list_iff.mp h
    obtain ⟨i, hi, rfl⟩ := List.mem_mapIdx.mp he
    refine ⟨fitsInt_iff.mpr ?_, hitems _ (List.getElem_mem hi)⟩
    unfold intMax at hlen
    omega
  | map entries => exact fits_map_iff.mp h e he
  | _ => cases he

/-! ## Numbers -/

/-- A text that denotes an integer wider than 64 bits. -/
def IsWide (v : Value) : Prop :=
  ∃ t n, v = .text t ∧ Numeral.readInt? 10 t.codes = some n ∧ fitsInt n = false

theorem toNumber_yields {v : Value} (hv : v.fits = true) (hw : ¬v.IsWide) :
    v.toNumber.Yields fun w => w.fits = true := by
  cases v with
  | null => exact yields_ok (by decide)
  | bool b => cases b <;> exact yields_ok (by decide)
  | int n => exact yields_ok hv
  | text t =>
    rw [toNumber]
    split
    next n hread =>
      exact yields_ok (Decidable.byContradiction fun hn =>
        hw ⟨t, n, rfl, hread, Bool.eq_false_iff.mpr hn⟩)
    next =>
      split
      · exact yields_ok rfl
      · exact yields_error
  | list => exact yields_error
  | map => exact yields_error
  | _ => exact yields_ok rfl

/-- The integer that arithmetic makes of a value fits, unless it is that of a wide text. -/
theorem fitsInt_of_number {v : Value} {n : Int} (hv : v.fits = true) (hw : ¬v.IsWide)
    (h : v.number = .ok (.int n)) : fitsInt n = true := by
  unfold number at h
  cases hnum : v.toNumber with
  | error f => rw [hnum] at h; cases h
  | ok w =>
    rw [hnum] at h
    cases w with
    | int m => cases h; exact toNumber_yields hv hw _ hnum
    | _ => cases h

theorem signed_mul (negative : Bool) (m k : Nat) :
    Binary64.signed negative (m * k) = Binary64.signed negative m * k := by
  cases negative
  · exact Int.natCast_mul m k
  · show -((m * k : Nat) : Int) = -(m : Int) * k
    rw [Int.natCast_mul, Int.neg_mul]

theorem fitsInt_signed_div {negative : Bool} {m k : Nat} (hk : 0 < k)
    (hlow : intMin * k ≤ Binary64.signed negative m)
    (hhigh : Binary64.signed negative m < (intMax + 1) * k) :
    fitsInt (Binary64.signed negative (m / k)) = true := by
  rw [fitsInt_iff]
  unfold intMin intMax at *
  cases negative with
  | true =>
    simp only [Binary64.signed, if_true] at *
    have : m / k ≤ 0x8000000000000000 := Nat.div_le_of_le_mul (by omega)
    generalize m / k = q at *
    omega
  | false =>
    simp only [Binary64.signed, Bool.false_eq_true, if_false] at *
    have : m / k < 0x8000000000000000 := (Nat.div_lt_iff_lt_mul hk).mpr (by omega)
    generalize m / k = q at *
    omega

/-- The whole part of a double that is taken for an integer fits. -/
theorem fitsInt_of_intOfFloat? {x : Float} {n : Int} (h : intOfFloat? x = some n) :
    fitsInt n = true := by
  unfold intOfFloat? at h
  split at h
  next negative m e _ =>
    simp only [Option.ite_none_right_eq_some, Option.some.injEq] at h
    obtain ⟨hrange, rfl⟩ := h
    unfold Binary64.truncate
    split at hrange
    next he =>
      -- a whole double is its own whole part
      rw [if_pos he, signed_mul]
      exact hrange
    next he =>
      rw [if_neg he]
      simp only [Bool.and_eq_true, decide_eq_true_eq] at hrange
      exact fitsInt_signed_div (Nat.pow_pos (by decide)) hrange.1 hrange.2
  · cases h

theorem toInt_yields {v : Value} (hv : v.fits = true) (hw : ¬v.IsWide) :
    v.toInt.Yields fun n => fitsInt n = true := by
  unfold toInt
  refine Yields.bind (P := fun x => ∀ n, x = .int n → fitsInt n = true) ?_ fun x hx => ?_
  · intro x hx n hn
    exact fitsInt_of_number hv hw (hn ▸ hx)
  · cases x with
    | int n => exact yields_ok (hx n rfl)
    | float x =>
      simp only
      split
      next n hn => exact yields_ok (fitsInt_of_intOfFloat? hn)
      next => exact yields_error

theorem ofIntResult_yields (n : Int) : (ofIntResult n).Yields fun v => v.fits = true := by
  unfold ofIntResult
  split
  next h => exact yields_ok h
  next => exact (Yields.any _).bind fun _ _ => yields_ok rfl

/-! ## Operators -/

theorem arithmetic_yields (f : Int → Int → Int) (g : Float → Float → Float) (a b : Value) :
    (arithmetic f g a b).Yields fun v => v.fits = true := by
  unfold arithmetic
  refine (Yields.any _).bind fun x _ => (Yields.any _).bind fun y _ => ?_
  split
  · exact ofIntResult_yields _
  · exact (Yields.any _).bind fun _ _ => (Yields.any _).bind fun _ _ => yields_ok rfl

theorem finitePower_yields (x y : Float) : (finitePower x y).Yields fun v => v.fits = true :=
  yields_ite (yields_ite yields_error (yields_ok rfl)) (yields_ite yields_error (yields_ok rfl))

theorem floatPower_yields (x y : Float) : (floatPower x y).Yields fun v => v.fits = true := by
  unfold floatPower
  refine yields_ite (yields_ok rfl) (yields_ite (yields_ok rfl) (yields_ite (yields_ok rfl) ?_))
  refine yields_ite (yields_ok rfl) (yields_ite (yields_ite (yields_ok rfl) (yields_ok rfl)) ?_)
  exact yields_ite (yields_ok rfl) (finitePower_yields x y)

theorem intPower_yields (base : Int) (exponent : Nat) :
    (intPower base exponent).Yields fun v => v.fits = true := by
  unfold intPower
  split
  next hbase =>
    refine yields_ok (fitsInt_iff.mpr ?_)
    repeat' split
    all_goals omega
  next =>
    split
    · exact yields_error
    · exact ofIntResult_yields _

theorem power_yields (a b : Value) : (power a b).Yields fun v => v.fits = true := by
  unfold power
  refine (Yields.any _).bind fun x _ => (Yields.any _).bind fun y _ => ?_
  split
  · exact yields_ok rfl
  · split
    · split
      · exact intPower_yields _ _
      · exact (Yields.any _).bind fun _ _ => (Yields.any _).bind fun _ _ => floatPower_yields _ _
    · exact (Yields.any _).bind fun _ _ => (Yields.any _).bind fun _ _ => floatPower_yields _ _

/-- The least integer divided by minus one, the only quotient of integers that does not fit. -/
def IsLeastNegated (a b : Value) : Prop :=
  a.number = .ok (.int intMin) ∧ b.number = .ok (.int (-1))

theorem fitsInt_div {m n : Int} (hm : fitsInt m = true)
    (h : ¬(m = intMin ∧ n = -1)) : fitsInt (m / n) = true := by
  rw [fitsInt_iff] at hm ⊢
  unfold intMin at h
  have habs := Int.natAbs_ediv_le_natAbs m n
  refine Decidable.byContradiction fun hout => ?_
  -- no quotient is larger than the dividend, so only one value is out of range
  have hq : m / n = 0x8000000000000000 := by omega
  have hdiv := Int.mul_ediv_add_emod m n
  rw [hq] at hdiv
  have hn0 : n ≠ 0 := fun h0 => by rw [h0, Int.ediv_zero] at hq; cases hq
  have hlow := Int.emod_nonneg m hn0
  have hhigh := Int.emod_lt m hn0
  omega

theorem divide_yields {a b : Value} (ha : a.fits = true) (hwa : ¬a.IsWide)
    (hl : ¬IsLeastNegated a b) :
    (divide a b).Yields fun v => v.fits = true := by
  unfold divide
  refine Yields.bind (P := fun x => a.number = .ok x) (fun x hx => hx) fun x hx =>
    Yields.bind (P := fun y => b.number = .ok y) (fun y hy => hy) fun y hy => ?_
  split
  · exact yields_error
  · split
    next m n =>
      split
      next =>
        refine yields_ok (fitsInt_div (fitsInt_of_number ha hwa hx) ?_)
        rintro ⟨rfl, rfl⟩
        exact hl ⟨hx, hy⟩
      next =>
        split
        · exact yields_ok rfl
        · exact yields_error
    next => exact (Yields.any _).bind fun _ _ => (Yields.any _).bind fun _ _ => yields_ok rfl

theorem modulo_yields {a b : Value} (ha : a.fits = true) (hwa : ¬a.IsWide) :
    (modulo a b).Yields fun v => v.fits = true := by
  unfold modulo
  refine (toInt_yields ha hwa).bind fun m hm => (Yields.any _).bind fun n _ => ?_
  split
  · exact yields_error
  · refine yields_ok (fitsInt_iff.mpr ?_)
    have hmod := Nat.mod_le m.natAbs n.natAbs
    have hm := fitsInt_iff.mp hm
    unfold Binary64.signed
    split
    next hneg => have := of_decide_eq_true hneg; omega
    next hneg => have := of_decide_eq_false (Bool.eq_false_iff.mpr hneg); omega

/-! ## Patterns -/

/-- A pattern of a 64-bit integer in more bits is its pattern of 64 bits, sign-extended. -/
theorem toPattern_eq {m : Int} (hm : fitsInt m = true) (w : Nat) :
    toPattern w m = ((BitVec.ofInt 64 m).signExtend w).toNat := by
  have hm := fitsInt_iff.mp hm
  have heq : (BitVec.ofInt 64 m).toInt = m :=
    BitVec.toInt_ofInt_eq_self (by decide) (by omega) (by omega)
  rw [BitVec.signExtend, heq, BitVec.toNat_ofInt]
  rfl

theorem fitsInt_toInt (x : BitVec 64) : fitsInt x.toInt = true := by
  have hlow := x.le_toInt
  have hhigh := x.toInt_lt
  rw [fitsInt_iff]
  omega

/-- A bitwise operation that commutes with sign extension is that of patterns of 64 bits. -/
theorem ofPattern_bitwise {f : Nat → Nat → Nat} (op : (w : Nat) → BitVec w → BitVec w → BitVec w)
    (hf : ∀ w (x y : BitVec w), f x.toNat y.toNat = (op w x y).toNat)
    (hop : ∀ w (x y : BitVec 64), op w (x.signExtend w) (y.signExtend w) = (op 64 x y).signExtend w)
    {m n : Int} (hm : fitsInt m = true) (hn : fitsInt n = true) {w : Nat} (hw : 64 ≤ w) :
    ofPattern w (f (toPattern w m) (toPattern w n))
      = (op 64 (BitVec.ofInt 64 m) (BitVec.ofInt 64 n)).toInt := by
  rw [toPattern_eq hm, toPattern_eq hn, hf, hop, ← BitVec.toInt_signExtend_of_le hw,
    BitVec.toInt_eq_toNat_bmod]
  rfl

theorem bitwise_yields {f : Nat → Nat → Nat} (op : (w : Nat) → BitVec w → BitVec w → BitVec w)
    (hf : ∀ w (x y : BitVec w), f x.toNat y.toNat = (op w x y).toNat)
    (hop : ∀ w (x y : BitVec 64), op w (x.signExtend w) (y.signExtend w) = (op 64 x y).signExtend w)
    {a b : Value} (ha : a.fits = true) (hb : b.fits = true) (hwa : ¬a.IsWide) (hwb : ¬b.IsWide) :
    (bitwise f a b).Yields fun v => v.fits = true := by
  unfold bitwise
  refine (toInt_yields ha hwa).bind fun m hm => (toInt_yields hb hwb).bind fun n hn => ?_
  have hvalue := ofPattern_bitwise op hf hop hm hn (w := patternWidth m n) (Nat.le_max_left ..)
  exact yields_ok (hvalue ▸ fitsInt_toInt _)

/-- What is cut back to 64 bits fits. -/
theorem fitsInt_bmod (k : Int) : fitsInt (Int.bmod k 0x10000000000000000) = true := by
  have hlow := Int.le_bmod (x := k) (m := 0x10000000000000000) (by decide)
  have hhigh := Int.bmod_lt (x := k) (m := 0x10000000000000000) (by decide)
  rw [fitsInt_iff]
  omega

theorem shiftLeft_yields (a b : Value) : (shiftLeft a b).Yields fun v => v.fits = true := by
  unfold shiftLeft
  refine (Yields.any _).bind fun m _ => (Yields.any _).bind fun n _ => ?_
  split
  · exact yields_error
  · split
    · exact yields_ok (by decide)
    · exact yields_ok (fitsInt_bmod _)

theorem shiftRight_yields {a b : Value} (ha : a.fits = true) (hwa : ¬a.IsWide) :
    (shiftRight a b).Yields fun v => v.fits = true := by
  unfold shiftRight
  refine (toInt_yields ha hwa).bind fun m hm => (Yields.any _).bind fun n _ => ?_
  split
  · exact yields_error
  · refine yields_ok ?_
    have hpos : (0 : Int) ≤ Nat.pow 2 (min n 63).toNat := Int.natCast_nonneg _
    show fitsInt (Int.fdiv m (Nat.pow 2 (min n 63).toNat)) = true
    rw [Int.fdiv_eq_ediv_of_nonneg m hpos]
    exact fitsInt_div hm fun h => by omega

end Value

/-! ## Arrays -/

/-- The key that a text is fits. -/
theorem Key.ofText_yields (t : Text) : (ofText t).Yields fun k => k.fits = true := by
  unfold ofText
  split
  · split
    · refine yields_ok ?_
      split
      next h => exact h
      next => rfl
    · exact yields_error
  · exact yields_ok rfl

theorem Key.ofValue_toValue_yields {k : Key} (h : k.fits = true) :
    (ofValue k.toValue).Yields fun j => j.fits = true := by
  cases k with
  | int n => exact yields_ok h
  | text t => exact ofText_yields t

namespace Accumulator

/-- Every integer in the entries fits 64 bits. -/
def Fits (a : Accumulator) : Prop := ∀ e ∈ a.entries, e.1.fits = true ∧ e.2.fits = true

theorem Fits.insert {a : Accumulator} {k : Key} {v : Value} (h : a.Fits) (hk : k.fits = true)
    (hv : v.fits = true) : (a.insert k v).Fits := fun e he => by
  rcases mem_put he with rfl | he
  · exact ⟨hk, hv⟩
  · exact h e he

/-- An array fits if its entries do, also when it is a list. -/
theorem value_fits_iff {a : Accumulator} : a.value.fits = true ↔ a.Fits := by
  unfold value valueOf
  split
  next hlist =>
    have hkey {i : Nat} (hi : i < a.entries.length) : a.entries[i].1 = .int i := by
      rw [key_of_countsFrom hlist hi, Int.zero_add]
    rw [Value.fits_list_iff, List.length_map]
    unfold intMax
    constructor
    · rintro ⟨hlen, hitems⟩ e he
      refine ⟨?_, hitems _ (List.mem_map_of_mem he)⟩
      obtain ⟨i, hi, rfl⟩ := List.getElem_of_mem he
      rw [hkey hi]
      exact Value.fitsInt_iff.mpr (by omega)
    · intro h
      refine ⟨?_, fun v hv => ?_⟩
      · rcases Nat.eq_zero_or_pos a.entries.length with hlen | hlen
        · omega
        · have hlast : a.entries.length - 1 < a.entries.length := by omega
          have hfits := (h _ (List.getElem_mem hlast)).1
          rw [hkey hlast] at hfits
          have := Value.fitsInt_iff.mp hfits
          omega
      · obtain ⟨e, he, rfl⟩ := List.mem_map.mp hv
        exact (h e he).2
  next => exact Value.fits_map_iff

end Accumulator

namespace Value

theorem union_yields {a b : Value} (ha : a.fits = true) (hb : b.fits = true) :
    (union a b).Yields fun v => v.fits = true := by
  have hall : ∀ e ∈ unite a.entries b.entries, e.1.fits = true ∧ e.2.fits = true := by
    intro e he
    rcases List.mem_append.mp he with he | he
    · exact fits_of_mem_entries ha he
    · exact fits_of_mem_entries hb (List.mem_filter.mp he).1
  have hrun (es : List (Key × Value)) (hes : ∀ e ∈ es, e.1.fits = true ∧ e.2.fits = true)
      (acc : Accumulator) (hacc : acc.Fits) :
      Outcome.Yields Accumulator.Fits
        (es.foldlM (fun acc e => acc.set e.1.toValue e.2) acc) := by
    induction es generalizing acc with
    | nil => exact yields_ok hacc
    | cons e rest ih =>
      rw [List.foldlM_cons]
      have he := hes e (List.mem_cons_self ..)
      refine Yields.bind (P := Accumulator.Fits) ?_ fun acc' hacc' =>
        ih (fun d hd => hes d (List.mem_cons_of_mem _ hd)) acc' hacc'
      exact (Key.ofValue_toValue_yields he.1).bind fun k hk => yields_ok (hacc.insert hk he.2)
  unfold union
  exact (hrun _ hall _ fun _ he => by cases he).bind fun acc hacc =>
    yields_ok (Accumulator.value_fits_iff.mpr hacc)

/-- A binary operator keeps to integers that fit, with two exceptions. -/
theorem apply_yields {op : BinaryOperator} {a b : Value} (ha : a.fits = true) (hb : b.fits = true)
    (hwa : ¬a.IsWide) (hwb : ¬b.IsWide) (hl : ¬(op = .divide ∧ IsLeastNegated a b)) :
    (apply op a b).Yields fun v => v.fits = true := by
  cases op with
  | add =>
    show (add a b).Yields _
    unfold add
    split
    · exact union_yields ha hb
    · exact arithmetic_yields _ _ a b
  | subtract => exact arithmetic_yields _ _ a b
  | multiply => exact arithmetic_yields _ _ a b
  | divide => exact divide_yields ha hwa fun h => hl ⟨rfl, h⟩
  | modulo => exact modulo_yields ha hwa
  | power => exact power_yields a b
  | concat =>
    show (concat a b).Yields _
    unfold concat
    split
    · exact yields_ok rfl
    · exact yields_error
  | bitOr =>
    exact bitwise_yields (fun _ x y => x ||| y) (fun _ x y => (BitVec.toNat_or x y).symm)
      (fun _ _ _ => BitVec.signExtend_or.symm) ha hb hwa hwb
  | bitAnd =>
    exact bitwise_yields (fun _ x y => x &&& y) (fun _ x y => (BitVec.toNat_and x y).symm)
      (fun _ _ _ => BitVec.signExtend_and.symm) ha hb hwa hwb
  | bitXor =>
    exact bitwise_yields (fun _ x y => x ^^^ y) (fun _ x y => (BitVec.toNat_xor x y).symm)
      (fun _ _ _ => BitVec.signExtend_xor.symm) ha hb hwa hwb
  | shiftLeft => exact shiftLeft_yields a b
  | shiftRight => exact shiftRight_yields ha hwa
  | compare c => exact (Yields.any _).bind fun _ _ => yields_ok rfl
  | spaceship =>
    show Yields _ (do return Value.int (← spaceship a b))
    refine Yields.bind (P := fun n => fitsInt n = true) ?_ fun n hn => yields_ok hn
    unfold spaceship
    refine (Yields.any _).bind fun greater _ => (Yields.any _).bind fun less _ => yields_ok ?_
    cases greater <;> cases less <;> decide
  | _ => exact yields_ok rfl

/-- A unary operator keeps to integers that fit, except for wide texts. -/
theorem applyUnary?_yields {operator : String} {v : Value} {o : Outcome Value}
    (h : applyUnary? operator v = some o) (hv : v.fits = true)
    (hw : ¬((operator = "+" ∨ operator = "~") ∧ v.IsWide)) :
    o.Yields fun v => v.fits = true := by
  unfold applyUnary? at h
  split at h
  next =>
    cases h
    refine (Yields.any _).bind fun x _ => ?_
    cases x with
    | int n => exact ofIntResult_yields _
    | float x => exact yields_ok rfl
  next =>
    split at h
    next hplus =>
      cases h
      exact toNumber_yields hv fun hwide => hw ⟨.inl hplus, hwide⟩
    next =>
      split at h
      next htilde =>
        cases h
        have hnarrow : ¬v.IsWide := fun hwide => hw ⟨.inr htilde, hwide⟩
        refine (toInt_yields hv hnarrow).bind fun n hn => yields_ok (fitsInt_iff.mpr ?_)
        have := fitsInt_iff.mp hn
        omega
      next =>
        split at h
        · cases h; exact yields_ok rfl
        · split at h
          · cases h; exact yields_ok hv
          · cases h

theorem IsWide.toNumber {v : Value} (h : v.IsWide) :
    ∃ n, v.toNumber = .ok (.int n) ∧ fitsInt n = false := by
  obtain ⟨t, n, rfl, hread, hn⟩ := h
  refine ⟨n, ?_, hn⟩
  rw [Value.toNumber, hread]

end Value

/-! ## Keys below the range -/

/-- A double whose whole part is below 64 bits. -/
def Key.IsLow (v : Value) : Prop :=
  ∃ x negative m e, v = .float x ∧ Binary64.shape x = .finite negative m e
    ∧ Binary64.truncate negative m e < intMin

/-- The key that a value is is not below 64 bits, unless it is that of such a double. -/
theorem Key.le_of_ofValue {v : Value} {n : Int} (hv : v.fits = true) (hlow : ¬IsLow v)
    (h : ofValue v = .ok (.int n)) : intMin ≤ n := by
  cases v with
  | null => cases h
  | bool b => cases h; cases b <;> decide
  | int m => cases h; exact (Value.fitsInt_iff.mp hv).1
  | float x =>
    have h : ofFloat x = .ok (.int n) := h
    unfold ofFloat at h
    split at h
    next => cases h
    next => cases h
    next negative m e hx =>
      cases h
      exact Int.not_lt.mp fun hn => hlow ⟨x, negative, m, e, rfl, hx, hn⟩
  | constantNaN => cases h
  | text t => exact (Value.fitsInt_iff.mp (ofText_yields t _ h)).1
  | list => cases h
  | map => cases h

theorem Key.IsLow.ofValue {v : Value} (h : IsLow v) :
    ∃ n, Key.ofValue v = .ok (.int n) ∧ n < intMin := by
  obtain ⟨x, negative, m, e, rfl, hx, hn⟩ := h
  refine ⟨_, ?_, hn⟩
  show ofFloat x = _
  rw [ofFloat, hx]

namespace Accumulator

/-- An entry whose value fits, and whose key does but for integers above the greatest. -/
def FitsFromBelow (k : Key) (v : Value) : Prop := (∀ n, k = .int n → intMin ≤ n) ∧ v.fits = true

theorem Sound.next_le {a : Accumulator} (h : a.Sound) (hfits : a.Fits) : a.next ≤ intMax + 1 := by
  unfold intMax
  rcases h.reached with hnext | hnext
  · omega
  · obtain ⟨e, he, hkey⟩ := List.mem_map.mp hnext
    have hk := (hfits e he).1
    rw [hkey] at hk
    have := Value.fitsInt_iff.mp hk
    omega

/-- With such entries an array fits as long as its next index does, or follows the
greatest integer. -/
theorem Sound.fits {a : Accumulator} (h : a.Sound)
    (hentries : ∀ e ∈ a.entries, FitsFromBelow e.1 e.2) (hnext : a.next ≤ intMax + 1) :
    a.Fits := by
  intro e he
  obtain ⟨hlow, hv⟩ := hentries e he
  refine ⟨?_, hv⟩
  cases hk : e.1 with
  | text t => rfl
  | int n =>
    have hbelow := h.below n (hk ▸ List.mem_map_of_mem he)
    have hn := hlow n hk
    unfold intMin at hn
    unfold intMax at hnext
    exact Value.fitsInt_iff.mpr (by omega)

end Accumulator

end StaticReflection
