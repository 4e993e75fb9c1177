import StaticReflection.Folding.Fold
import StaticReflection.Proofs.Decimal.Digits
import StaticReflection.Proofs.Decimal.Overflow
import StaticReflection.Proofs.Value.Outcome

/-!
# Faults of operations on values

An operation on values fails because its operands are no constants, which is
reported, or with a fault. `Value.apply_failsOnly` says that every fault of a binary
operator is one that folding turns into a report; outside the operators nothing does
that, so for the unary minus, array keys and unpacking the lemmas below say exactly
which operands give a fault.
-/

namespace StaticReflection

/-- A failure that folding an operator reports. -/
def Failure.isReported : Failure → Bool
  | .fault cause => cause.isArithmetic
  | f => f.isUnfoldable

namespace Outcome

theorem isReported_of_isUnfoldable (f : Failure) (h : f.isUnfoldable = true) :
    f.isReported = true := by
  cases f with
  | fault => cases h
  | _ => exact h

end Outcome

open Outcome

namespace Value

/-! ## Numbers -/

theorem toNumber_failsOnly (v : Value) : v.toNumber.FailsOnly Failure.isUnfoldable := by
  cases v with
  | text t =>
    rw [toNumber]
    split
    · exact failsOnly_ok
    · split
      · exact failsOnly_ok
      · exact failsOnly_unfoldable
  | list items => exact failsOnly_unfoldable
  | map entries => exact failsOnly_unfoldable
  | _ => exact failsOnly_ok

theorem number_failsOnly (v : Value) : v.number.FailsOnly Failure.isUnfoldable := by
  unfold number
  refine v.toNumber_failsOnly.bind fun w => ?_
  split <;> exact failsOnly_ok

theorem toInt_failsOnly (v : Value) : v.toInt.FailsOnly Failure.isUnfoldable := by
  unfold toInt
  refine v.number_failsOnly.bind fun x => ?_
  cases x with
  | int n => exact failsOnly_ok
  | float x =>
    simp only
    split
    · exact failsOnly_ok
    · exact failsOnly_error rfl

theorem number_reported (v : Value) : v.number.FailsOnly Failure.isReported :=
  v.number_failsOnly.mono isReported_of_isUnfoldable

theorem toInt_reported (v : Value) : v.toInt.FailsOnly Failure.isReported :=
  v.toInt_failsOnly.mono isReported_of_isUnfoldable

theorem floatOfInt_reported (n : Int) : (floatOfInt n).FailsOnly Failure.isReported := by
  unfold floatOfInt
  split
  · exact failsOnly_ok
  · exact failsOnly_error rfl

theorem floatOfInt_escapes_iff {n : Int} :
    (floatOfInt n).Escapes ↔ Binary64.overflow ≤ n.natAbs := by
  rw [← Binary64.ofInt?_eq_none_iff]
  unfold floatOfInt
  split
  next h => rw [h]; exact ⟨fun h => (not_escapes_ok h).elim, fun h => by cases h⟩
  next h => exact ⟨fun _ => h, fun _ => escapes_fault⟩

theorem toFloat_reported (x : Number) : x.toFloat.FailsOnly Failure.isReported := by
  cases x with
  | int n => exact floatOfInt_reported n
  | float x => exact failsOnly_ok

theorem ofIntResult_reported (n : Int) : (ofIntResult n).FailsOnly Failure.isReported := by
  unfold ofIntResult
  split
  · exact failsOnly_ok
  · exact (floatOfInt_reported n).bind fun _ => failsOnly_ok

end Value

/-! ## Keys and arrays -/

theorem Key.ofText_reported (t : Text) : (ofText t).FailsOnly Failure.isReported := by
  unfold ofText
  split
  · split
    · exact failsOnly_ok
    · exact failsOnly_error rfl
  · exact failsOnly_ok

theorem Key.ofValue_toValue_reported (k : Key) :
    (ofValue k.toValue).FailsOnly Failure.isReported := by
  cases k with
  | int n => exact failsOnly_ok
  | text t => exact ofText_reported t

namespace Value

/-- A union takes keys as they are, and they are no doubles. -/
theorem union_reported (a b : Value) : (union a b).FailsOnly Failure.isReported := by
  unfold union
  refine FailsOnly.bind ?_ fun _ => failsOnly_ok
  generalize Accumulator.empty = acc
  induction unite a.entries b.entries generalizing acc with
  | nil => exact failsOnly_ok
  | cons e rest ih =>
    rw [List.foldlM_cons]
    exact (e.1.ofValue_toValue_reported.bind fun _ => failsOnly_ok).bind fun acc => ih acc

/-! ## Operators -/

theorem arithmetic_reported (f : Int → Int → Int) (g : Float → Float → Float) (a b : Value) :
    (arithmetic f g a b).FailsOnly Failure.isReported := by
  unfold arithmetic
  refine a.number_reported.bind fun x => b.number_reported.bind fun y => ?_
  split
  · exact ofIntResult_reported _
  · exact (toFloat_reported x).bind fun _ => (toFloat_reported y).bind fun _ => failsOnly_ok

theorem divide_reported (a b : Value) : (divide a b).FailsOnly Failure.isReported := by
  unfold divide
  refine a.number_reported.bind fun x => b.number_reported.bind fun y => ?_
  split
  · exact failsOnly_error rfl
  · split
    · split
      · exact failsOnly_ok
      · split
        · exact failsOnly_ok
        · exact failsOnly_error rfl
    · exact (toFloat_reported x).bind fun _ => (toFloat_reported y).bind fun _ => failsOnly_ok

theorem modulo_reported (a b : Value) : (modulo a b).FailsOnly Failure.isReported := by
  unfold modulo
  refine a.toInt_reported.bind fun m => b.toInt_reported.bind fun n => ?_
  split
  · exact failsOnly_error rfl
  · exact failsOnly_ok

theorem finitePower_reported (x y : Float) : (finitePower x y).FailsOnly Failure.isReported :=
  failsOnly_ite (failsOnly_ite (failsOnly_error rfl) failsOnly_ok)
    (failsOnly_ite (failsOnly_error rfl) failsOnly_ok)

theorem floatPower_reported (x y : Float) : (floatPower x y).FailsOnly Failure.isReported := by
  unfold floatPower
  refine failsOnly_ite failsOnly_ok (failsOnly_ite failsOnly_ok (failsOnly_ite failsOnly_ok ?_))
  refine failsOnly_ite failsOnly_ok (failsOnly_ite (failsOnly_ite failsOnly_ok failsOnly_ok) ?_)
  exact failsOnly_ite failsOnly_ok (finitePower_reported x y)

theorem intPower_reported (base : Int) (exponent : Nat) :
    (intPower base exponent).FailsOnly Failure.isReported := by
  unfold intPower
  split
  · exact failsOnly_ok
  · split
    · exact failsOnly_error rfl
    · exact ofIntResult_reported _

theorem power_reported (a b : Value) : (power a b).FailsOnly Failure.isReported := by
  have onFloats {p q : Outcome Float} (hp : p.FailsOnly Failure.isReported)
      (hq : q.FailsOnly Failure.isReported) :
      FailsOnly Failure.isReported (do floatPower (← p) (← q)) :=
    hp.bind fun x => hq.bind fun y => floatPower_reported x y
  unfold power
  refine a.number_reported.bind fun x => b.number_reported.bind fun y => ?_
  split
  · exact failsOnly_ok
  · split
    · split
      · exact intPower_reported _ _
      · exact onFloats (floatOfInt_reported _) (floatOfInt_reported _)
    · exact onFloats (toFloat_reported x) (toFloat_reported y)

theorem bitwise_reported (f : Nat → Nat → Nat) (a b : Value) :
    (bitwise f a b).FailsOnly Failure.isReported := by
  unfold bitwise
  exact a.toInt_reported.bind fun _ => b.toInt_reported.bind fun _ => failsOnly_ok

theorem shiftLeft_reported (a b : Value) : (shiftLeft a b).FailsOnly Failure.isReported := by
  unfold shiftLeft
  refine a.toInt_reported.bind fun m => b.toInt_reported.bind fun n => ?_
  split
  · exact failsOnly_error rfl
  · split <;> exact failsOnly_ok

theorem shiftRight_reported (a b : Value) : (shiftRight a b).FailsOnly Failure.isReported := by
  unfold shiftRight
  refine a.toInt_reported.bind fun m => b.toInt_reported.bind fun n => ?_
  split
  · exact failsOnly_error rfl
  · exact failsOnly_ok

theorem compareScalars_reported (c : Comparison) (a b : Value) :
    (compareScalars c a b).FailsOnly Failure.isReported := by
  unfold compareScalars
  split
  · exact failsOnly_ok
  · split
    · exact failsOnly_ok
    · exact failsOnly_error rfl

mutual

theorem compareValues_reported (c : Comparison) :
    ∀ a b, (compareValues c a b).FailsOnly Failure.isReported
  | .list xs, .list ys => by
    rw [compareValues]
    exact compareItems_reported c xs ys
  | a, b => by
    unfold compareValues
    split
    · exact compareItems_reported c _ _
    · exact compareScalars_reported c _ _

theorem compareItems_reported (c : Comparison) :
    ∀ xs ys, (compareItems c xs ys).FailsOnly Failure.isReported
  | [], _ => by
    rw [compareItems]
    exact failsOnly_ok
  | _ :: _, [] => by
    rw [compareItems]
    exact failsOnly_ok
  | x :: xs, y :: ys => by
    rw [compareItems]
    split
    · exact compareItems_reported c xs ys
    · exact compareValues_reported c x y

end

/-- Every fault of a binary operator is one that is reported. -/
theorem apply_failsOnly (op : BinaryOperator) (a b : Value) :
    (apply op a b).FailsOnly Failure.isReported := by
  cases op with
  | add =>
    show (add a b).FailsOnly _
    unfold add
    split
    · exact union_reported a b
    · exact arithmetic_reported _ _ a b
  | subtract => exact arithmetic_reported _ _ a b
  | multiply => exact arithmetic_reported _ _ a b
  | divide => exact divide_reported a b
  | modulo => exact modulo_reported a b
  | power => exact power_reported a b
  | concat =>
    show (concat a b).FailsOnly _
    unfold concat
    split
    · exact failsOnly_ok
    · exact failsOnly_error rfl
  | bitOr => exact bitwise_reported _ a b
  | bitAnd => exact bitwise_reported _ a b
  | bitXor => exact bitwise_reported _ a b
  | shiftLeft => exact shiftLeft_reported a b
  | shiftRight => exact shiftRight_reported a b
  | compare c => exact (compareValues_reported c a b).bind fun _ => failsOnly_ok
  | spaceship =>
    refine FailsOnly.bind ?_ fun _ => failsOnly_ok
    unfold spaceship
    exact (compareValues_reported _ a b).bind fun _ =>
      (compareValues_reported _ a b).bind fun _ => failsOnly_ok
  | _ => exact failsOnly_ok

/-- An integer as a result is out of range exactly from the bound of doubles on. -/
theorem ofIntResult_escapes_iff {n : Int} :
    (ofIntResult n).Escapes ↔ Binary64.overflow ≤ n.natAbs := by
  unfold ofIntResult
  split
  next h =>
    have := Binary64.lt_overflow
    unfold fitsInt intMin intMax at h
    simp only [Bool.and_eq_true, decide_eq_true_eq] at h
    exact ⟨fun h => (not_escapes_ok h).elim, fun _ => by omega⟩
  next => exact (escapes_bind_iff_left fun _ _ => not_escapes_ok).trans floatOfInt_escapes_iff

/-- Of the unary operators only the minus has operands that give a fault. -/
theorem applyUnary?_escapes_iff {operator : String} {v : Value} {o : Outcome Value}
    (h : applyUnary? operator v = some o) :
    o.Escapes ↔ operator = "-" ∧ ∃ n, v.number = .ok (.int n) ∧ Binary64.overflow ≤ n.natAbs := by
  have without (hne : operator ≠ "-") (ho : o.FailsOnly Failure.isUnfoldable) :
      o.Escapes ↔ operator = "-"
        ∧ ∃ n, v.number = .ok (.int n) ∧ Binary64.overflow ≤ n.natAbs :=
    ⟨fun h => (ho.not_escapes h).elim, fun h => (hne h.1).elim⟩
  unfold applyUnary? at h
  split at h
  next hminus =>
    -- the number itself is reported, its negative may be out of range
    cases h
    refine (escapes_bind_iff_right v.number_failsOnly).trans ⟨?_, ?_⟩
    · rintro ⟨x, hx, hesc⟩
      cases x with
      | int n =>
        rw [ofIntResult_escapes_iff, Int.natAbs_neg] at hesc
        exact ⟨hminus, n, hx, hesc⟩
      | float x => exact (not_escapes_ok hesc).elim
    · rintro ⟨_, n, hx, hn⟩
      exact ⟨_, hx, ofIntResult_escapes_iff.mpr (by rwa [Int.natAbs_neg])⟩
  next hne =>
    split at h
    · cases h; exact without hne v.toNumber_failsOnly
    · split at h
      · cases h; exact without hne (v.toInt_failsOnly.bind fun _ => failsOnly_ok)
      · split at h
        · cases h; exact without hne failsOnly_ok
        · split at h
          · cases h; exact without hne failsOnly_ok
          · cases h

end Value

namespace Key

/-! ## Keys that are none -/

/-- Whether a text has the form of an integer, and more digits than can be read. -/
def isOverlong (t : Text) : Bool :=
  isIntegerText t.codes && decide (Numeral.maxDigits < (t.codes.filter isDigitCode).length)

/-- Whether a value is no key, and a fault as one: a double that is not finite, or an
overlong text. -/
def isFaulty : Value → Bool
  | .float x => !Binary64.isFinite x
  | .constantNaN _ => true
  | .text t => isOverlong t
  | _ => false

theorem plain_digit : ∀ n < 58, 48 ≤ n → Numeral.isDigit 10 (Numeral.plain n) = true := by
  decide

/-- The characters that digits count as are digits. -/
theorem plain_of_isDigitCode {c : CodePoint} (h : isDigitCode c = true) :
    Numeral.isDigit 10 (Numeral.plain c.val) = true := by
  simp only [isDigitCode, Bool.and_eq_true, decide_eq_true_eq] at h
  exact plain_digit c.val (by omega) h.1

theorem not_isSpace_of_isDigitCode {c : CodePoint} (h : isDigitCode c = true) :
    Numeral.isSpace (Numeral.plain c.val) = false :=
  Numeral.isSpace_of_isDigit (by decide) (plain_of_isDigitCode h)

theorem isDigitCode_of_isPlainDigits {codes : List CodePoint} (h : isPlainDigits codes = true) :
    codes ≠ [] ∧ ∀ c ∈ codes, isDigitCode c = true := by
  cases codes with
  | nil => cases h
  | cons c rest =>
    refine ⟨List.cons_ne_nil c rest, fun d hd => ?_⟩
    cases rest with
    | nil =>
      rw [List.mem_singleton.mp hd]
      exact h
    | cons e more =>
      simp only [isPlainDigits, Bool.and_eq_true] at h
      rcases List.mem_cons.mp hd with rfl | hd
      · exact h.1.1
      · exact List.all_eq_true.mp h.2 d hd

theorem plain_isDigit {codes : List CodePoint} (h : ∀ c ∈ codes, isDigitCode c = true) :
    ∀ c ∈ codes.map (fun c => Numeral.plain c.val), Numeral.isDigit 10 c = true := by
  intro c hc
  obtain ⟨d, hd, rfl⟩ := List.mem_map.mp hc
  exact plain_of_isDigitCode (h d hd)

/-- What is read of a text of digits: none if there are too many. -/
theorem readDigits_eq_none_iff (negative : Bool) {codes : List CodePoint}
    (h : isPlainDigits codes = true) :
    (match Numeral.digits? 10 (Numeral.dropBase 10 (codes.map fun c => Numeral.plain c.val)) with
      | none => none
      | some ds =>
        if 10 = 10 ∧ Numeral.maxDigits < ds.length then none
        else some (Binary64.signed negative (Numeral.ofDigits 10 ds))) = none
      ↔ Numeral.maxDigits < codes.length := by
  obtain ⟨hne, hdigits⟩ := isDigitCode_of_isPlainDigits h
  have hall := plain_isDigit hdigits
  rw [Numeral.dropBase_of_isDigit hall,
    Numeral.digits?_of_isDigit (by decide) hall (by rwa [Ne, List.map_eq_nil_iff])]
  simp only [true_and, List.length_map]
  split
  next hlt => exact ⟨fun _ => hlt, fun _ => rfl⟩
  next hge => exact ⟨fun h => (by cases h), fun h => (hge h).elim⟩

/-- A text that has the form of an integer is read, unless it has too many digits. -/
theorem readInt?_eq_none_iff {codes : List CodePoint} (h : isIntegerText codes = true) :
    Numeral.readInt? 10 codes = none
      ↔ Numeral.maxDigits < (codes.filter isDigitCode).length := by
  cases codes with
  | nil => cases h
  | cons c rest =>
    unfold isIntegerText at h
    simp only at h
    split at h
    next hminus =>
      -- a minus, which is no digit and counts as none, and digits after it
      obtain ⟨_, hdigits⟩ := isDigitCode_of_isPlainDigits h
      have hc : isDigitCode c = false := by
        unfold isDigitCode
        rw [hminus]
        rfl
      have hplain : Numeral.plain c.val = '-' := by rw [hminus]; decide
      rw [List.filter_cons_of_neg (by rw [hc]; decide), List.filter_eq_self.mpr hdigits]
      unfold Numeral.readInt?
      rw [Numeral.trimmed_eq, List.map_cons, hplain]
      · exact readDigits_eq_none_iff true h
      · intro d hd
        rcases List.mem_cons.mp hd with rfl | hd
        · rw [hplain]; decide
        · exact not_isSpace_of_isDigitCode (hdigits d hd)
    next =>
      -- nothing but digits, so there is no sign to take off
      obtain ⟨_, hdigits⟩ := isDigitCode_of_isPlainDigits h
      rw [List.filter_eq_self.mpr hdigits]
      unfold Numeral.readInt?
      rw [Numeral.trimmed_eq fun d hd => not_isSpace_of_isDigitCode (hdigits d hd),
        Numeral.takeSign_of_isDigit (by decide) (plain_isDigit hdigits)]
      exact readDigits_eq_none_iff false h

theorem ofText_escapes_iff {t : Text} : (ofText t).Escapes ↔ isOverlong t = true := by
  unfold ofText isOverlong
  split
  next h =>
    rw [h, Bool.true_and, decide_eq_true_eq, ← readInt?_eq_none_iff h]
    split
    next hn => rw [hn]; exact ⟨fun h => (not_escapes_ok h).elim, fun h => by cases h⟩
    next hn => exact ⟨fun _ => hn, fun _ => escapes_fault⟩
  next h =>
    rw [Bool.eq_false_iff.mpr h, Bool.false_and]
    exact ⟨fun h => (not_escapes_ok h).elim, fun h => by cases h⟩

/-- A text is a key, or a fault. -/
theorem exists_ofText_ok {t : Text} (h : ¬isOverlong t = true) : ∃ k, ofText t = .ok k := by
  rw [← ofText_escapes_iff] at h
  unfold ofText at h ⊢
  split at h
  next hform =>
    rw [if_pos hform]
    split at h
    next => exact ⟨_, rfl⟩
    next => exact (h escapes_fault).elim
  next hform => exact ⟨_, if_neg hform⟩

/-- The values that are faults as keys. -/
theorem ofValue_escapes_iff {v : Value} : (ofValue v).Escapes ↔ isFaulty v = true := by
  have without {o : Outcome Key} (ho : o.FailsOnly Failure.isUnfoldable) :
      o.Escapes ↔ false = true := ⟨fun h => (ho.not_escapes h).elim, fun h => by cases h⟩
  cases v with
  | float x =>
    show (ofFloat x).Escapes ↔ (!Binary64.isFinite x) = true
    unfold ofFloat Binary64.isFinite
    cases Binary64.shape x with
    | nan => exact ⟨fun _ => rfl, fun _ => escapes_fault⟩
    | infinite => exact ⟨fun _ => rfl, fun _ => escapes_fault⟩
    | finite => exact without failsOnly_ok
  | constantNaN => exact ⟨fun _ => rfl, fun _ => escapes_fault⟩
  | text t => exact ofText_escapes_iff
  | list => exact without failsOnly_unfoldable
  | map => exact without failsOnly_unfoldable
  | _ => exact without failsOnly_ok

end Key

namespace Accumulator

theorem set_escapes_iff {a : Accumulator} {key value : Value} :
    (a.set key value).Escapes ↔ Key.isFaulty key = true :=
  (escapes_bind_iff_left fun _ _ => not_escapes_ok).trans Key.ofValue_escapes_iff

/-- Entries are added unless one has a key that is a fault. -/
theorem extendEntries_escapes_iff {a : Accumulator} {entries : List (Key × Value)} :
    (a.extendEntries entries).Escapes ↔ ∃ e ∈ entries, Key.isFaulty e.1.toValue = true := by
  induction entries generalizing a with
  | nil => exact ⟨fun h => (not_escapes_ok h).elim, fun ⟨_, he, _⟩ => by cases he⟩
  | cons e rest ih =>
    obtain ⟨k, v⟩ := e
    simp only [List.mem_cons, exists_eq_or_imp]
    cases k with
    | int n =>
      rw [extendEntries, ih]
      exact ⟨.inr, fun h => h.elim (fun h => by cases h) id⟩
    | text t =>
      -- the key of a text is read once more, and may be a fault although it is a key
      rw [extendEntries]
      by_cases hkey : Key.isFaulty (.text t) = true
      · have hesc : (a.set (.text t) v).Escapes := set_escapes_iff.mpr hkey
        obtain ⟨f, hset, hf⟩ := hesc
        exact ⟨fun _ => .inl hkey, fun _ => ⟨f, by rw [hset]; rfl, hf⟩⟩
      · obtain ⟨k, hk⟩ := Key.exists_ofText_ok hkey
        have hset : a.set (.text t) v = .ok (a.insert k v) := by
          show (do return a.insert (← Key.ofText t) v) = _
          rw [hk]
          rfl
        rw [hset]
        exact ih.trans (or_iff_right hkey).symm

/-- A value is unpacked unless it is a map with such a key. -/
theorem extend_escapes_iff {a : Accumulator} {v : Value} :
    (a.extend v).Escapes ↔ ∃ e ∈ v.entries, Key.isFaulty e.1.toValue = true := by
  cases v with
  | list items =>
    refine ⟨fun h => (not_escapes_ok h).elim, fun ⟨e, he, h⟩ => ?_⟩
    obtain ⟨i, hi, rfl⟩ := List.mem_mapIdx.mp he
    cases h
  | map entries => exact extendEntries_escapes_iff
  | _ => exact ⟨fun h => (failsOnly_unfoldable.not_escapes h).elim, fun ⟨_, he, _⟩ => by cases he⟩

end Accumulator

end StaticReflection
