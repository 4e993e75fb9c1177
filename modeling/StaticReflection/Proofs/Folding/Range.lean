import StaticReflection.Proofs.Folding.Literals
import StaticReflection.Proofs.Folding.Reach
import StaticReflection.Proofs.Value.Range

/-!
# When folding leaves the integers of 64 bits

Folding turns integers that do not fit 64 bits into doubles, but not everywhere.
`Folder.Leaks` lists the expressions that have a value with an integer beyond 64 bits
because of their own form: `PHP_INT_MIN / -1`, operators that take a text for an integer
of any size, and arrays whose next index or whose key from a double is out of range.

> `fold_fits_iff`: with magic and class constants that fit, all values that a fold comes
> to fit if and only if it reaches no expression that leaks.

A leak inside an expression need not show in its value, which is why the statement is
about all the values a fold comes to.
-/

namespace StaticReflection

open Folding Outcome

theorem mem_of_lookup {α : Type} {key : String} {pairs : List (String × α)} {a : α}
    (h : pairs.lookup key = some a) : (key, a) ∈ pairs := by
  obtain ⟨before, after, rfl, _⟩ := List.lookup_eq_some_iff.mp h
  exact List.mem_append_right _ (List.mem_cons_self ..)

theorem BuiltinConstants.literal?_fits {lowered : String} {v : Value}
    (h : literal? lowered = some v) : v.fits = true := by
  unfold literal? at h
  split at h
  · cases h; rfl
  · split at h
    · cases h; rfl
    · split at h <;> cases h
      rfl

theorem BuiltinConstants.value?_fits {name : String} {v : Value} (h : value? name = some v) :
    v.fits = true := by
  have hintegers : ∀ p ∈ integers, fitsInt p.2 = true := by decide
  unfold value? at h
  split at h
  · cases h; rfl
  · split at h
    next n hn => cases h; exact hintegers _ (mem_of_lookup hn)
    next =>
      split at h
      · cases h; rfl
      · obtain ⟨t, _, rfl⟩ := Option.map_eq_some_iff.mp h
        rfl

namespace Folder

variable {σ : Type} (F : Folder σ)

/-- An expression has a value with an integer beyond 64 bits because of its own form. -/
inductive Leaks : Node → σ → Prop
  /-- An integer literal with a sign, which only a given tree can hold. -/
  | literal {n : Node} {s : σ} {k : Int} (hn : ExprForm.ofKind? n.kind = some .integer)
      (hk : Literal.integerOf? (F.text n) = some k) (h : k < intMin) : Leaks n s
  | unary {n c : Node} {s : σ} {a : Value} {operator : String}
      (hn : F.plan n = .unary operator c) (hop : operator = "+" ∨ operator = "~")
      (hc : (F.fold c).outcome s = .ok a) (h : a.IsWide) : Leaks n s
  | quotient {n l r : Node} {s : σ} {a b : Value} {spelling : String}
      (hn : F.plan n = .binary spelling .divide l r) (hl : (F.fold l).outcome s = .ok a)
      (hr : (F.fold r).outcome ((F.fold l).after s) = .ok b) (h : Value.IsLeastNegated a b) :
      Leaks n s
  /-- An operator on a wide text, whose result is not brought back into range. -/
  | binary {n l r : Node} {s : σ} {a b v : Value} {spelling : String} {operator : BinaryOperator}
      (hn : F.plan n = .binary spelling operator l r) (hl : (F.fold l).outcome s = .ok a)
      (hr : (F.fold r).outcome ((F.fold l).after s) = .ok b) (hwide : a.IsWide ∨ b.IsWide)
      (ho : Value.apply operator a b = .ok v) (h : v.fits = false) : Leaks n s
  /-- The next index is beyond the one that follows the greatest integer. -/
  | nextIndex {n : Node} {s : σ} {es : List Node} {acc : Accumulator} (hn : F.plan n = .array es)
      (hb : (F.foldElements es Accumulator.empty).outcome s = .ok acc)
      (h : intMax + 1 < acc.next) : Leaks n s
  /-- A key is a double whose whole part is below the least integer. -/
  | lowKey {n e k i : Node} {before rest : List Node} {s t : σ} {acc final : Accumulator}
      {a : Value} (hn : F.plan n = .array (before ++ e :: rest))
      (hall : (F.foldElements (before ++ e :: rest) Accumulator.empty).outcome s = .ok final)
      (hb : (F.foldElements before Accumulator.empty).outcome s = .ok acc)
      (ht : (F.foldElements before Accumulator.empty).after s = t)
      (he : e.elementPlan = .keyed k i) (hk : (F.fold k).outcome t = .ok a)
      (h : Key.IsLow a) : Leaks n s

/-- Magic constants and class constants have values that fit. -/
structure SuppliesFitting (F : Folder σ) : Prop where
  magic : ∀ p ∈ F.magic, p.2.fits = true
  constants : ∀ resolve, F.classConstant = some resolve → ∀ scope name s v,
    (resolve scope name).outcome s = .ok v → v.fits = true

variable {F}

/-! ## Arrays -/

theorem foldElement_grows {acc next : Accumulator} {e : Node} {s : σ} (ha : acc.Sound)
    (h : (F.foldElement acc e).outcome s = .ok next) :
    Accumulator.Grows (fun _ _ => True) acc next := by
  rcases foldElement_ok_cases h with ⟨c, v, _, _, h⟩ | ⟨k, i, a, v, _, _, _, h⟩ | ⟨i, v, _, _, rfl⟩
  · exact Accumulator.grows_extend ha h (fun _ _ _ _ => trivial) fun _ _ _ _ _ => trivial
  · exact Accumulator.grows_set h fun _ _ => trivial
  · exact Accumulator.grows_append ha fun _ _ => trivial

theorem foldElements_grows {es : List Node} {s : σ} {start final : Accumulator}
    (ha : start.Sound) (h : (F.foldElements es start).outcome s = .ok final) :
    Accumulator.Grows (fun _ _ => True) start final :=
  foldElements_invariant h .refl fun _ _ _ _ _ _ _ he hacc =>
    hacc.trans (foldElement_grows (hacc.sound ha) he)

theorem foldElements_sound {es : List Node} {s : σ} {acc : Accumulator}
    (h : (F.foldElements es Accumulator.empty).outcome s = .ok acc) : acc.Sound :=
  (foldElements_grows Accumulator.sound_empty h).sound Accumulator.sound_empty

/-- An element whose operands fit adds entries that fit but for keys that are too great. -/
theorem foldElement_fits {acc next : Accumulator} {e : Node} {s : σ} (ha : acc.Sound)
    (h : (F.foldElement acc e).outcome s = .ok next)
    (hfits : ∀ c t v, F.ElementOperand e s c t → (F.fold c).outcome t = .ok v → v.fits = true)
    (hlow : ∀ k i a, e.elementPlan = .keyed k i → (F.fold k).outcome s = .ok a → ¬Key.IsLow a) :
    Accumulator.Grows Accumulator.FitsFromBelow acc next := by
  have natural {v : Value} (hv : v.fits = true) (n : Int) (hn : 0 ≤ n) :
      Accumulator.FitsFromBelow (.int n) v :=
    ⟨fun m hm => by cases hm; exact Int.le_trans (by decide) hn, hv⟩
  rcases foldElement_ok_cases h with
    ⟨c, v, he, hc, h⟩ | ⟨k, i, a, v, he, hk, hi, h⟩ | ⟨i, v, he, hi, rfl⟩
  · -- a spread reads its text keys again, and what it reads fits
    have hv := hfits c s v (.spread he) hc
    refine Accumulator.grows_extend ha h
      (fun d hd => natural (Value.fits_of_mem_entries hv hd).2) fun d hd t k hk => ⟨?_, ?_⟩
    · intro n hn
      have hn : (Key.int n).fits = true := Key.ofText_yields t _ (hn ▸ hk)
      exact (Value.fitsInt_iff.mp hn).1
    · exact (Value.fits_of_mem_entries hv hd).2
  · refine Accumulator.grows_set h fun key hkey => ⟨fun n hn => ?_, hfits i _ v (.item he hk) hi⟩
    exact Key.le_of_ofValue (hfits k s a (.key he) hk) (hlow k i a he hk) (hn ▸ hkey)
  · exact Accumulator.grows_append ha (natural (hfits i s v (.plain he) hi))

/-- The entries of an array whose operands fit, but for keys that are too great. -/
theorem array_fits {n : Node} {s : σ} {es : List Node} {acc : Accumulator}
    (hn : F.plan n = .array es)
    (hb : (F.foldElements es Accumulator.empty).outcome s = .ok acc)
    (hfits : ∀ c t v, F.Operand n s c t → (F.fold c).outcome t = .ok v → v.fits = true)
    (hleaks : ¬F.Leaks n s) : acc.value.fits = true := by
  have hinv : acc.Sound ∧ ∀ e ∈ acc.entries, Accumulator.FitsFromBelow e.1 e.2 := by
    refine foldElements_invariant
      (P := fun a => a.Sound ∧ ∀ e ∈ a.entries, Accumulator.FitsFromBelow e.1 e.2)
      hb ⟨Accumulator.sound_empty, fun _ he => by cases he⟩ ?_
    intro before e rest a next hes hbefore he ha
    subst hes
    have hgrows := foldElement_fits ha.1 he
      (fun c t v ho => hfits c t v (.element hn hbefore ho))
      fun k i b hplan hk hlow => hleaks (.lowKey hn hb hbefore rfl hplan hk hlow)
    exact ⟨hgrows.sound ha.1, hgrows.forall_entries ha.2⟩
  have hnext : acc.next ≤ intMax + 1 := Int.not_lt.mp fun h => hleaks (.nextIndex hn hb h)
  exact Accumulator.value_fits_iff.mpr (hinv.1.fits hinv.2 hnext)

/-- A key from a double below the range stays among the keys. -/
theorem not_fits_of_lowKey {e k i : Node} {before rest : List Node} {s : σ}
    {acc final : Accumulator} {a : Value}
    (hall : (F.foldElements (before ++ e :: rest) Accumulator.empty).outcome s = .ok final)
    (hb : (F.foldElements before Accumulator.empty).outcome s = .ok acc)
    (he : e.elementPlan = .keyed k i)
    (hk : (F.fold k).outcome ((F.foldElements before Accumulator.empty).after s) = .ok a)
    (hlow : Key.IsLow a) : ¬final.Fits := by
  intro hfits
  obtain ⟨n, hkey, hn⟩ := hlow.ofValue
  have hacc := foldElements_sound hb
  rw [foldElements_ok_append hb, foldElements_cons] at hall
  obtain ⟨next, hnext, hrest⟩ := exists_of_bind_ok hall
  have hsound := (foldElement_grows hacc hnext).sound hacc
  -- the key is there once its element is, and no later element takes it out
  have hmem : .int n ∈ next.keys := by
    rcases foldElement_ok_cases hnext with
      ⟨c, v, h, _⟩ | ⟨k', i', a', v, h, hk', _, hset⟩ | ⟨i', v, h, _⟩
    · rw [he] at h; cases h
    · rw [he] at h
      cases h
      rw [hk] at hk'
      cases hk'
      obtain ⟨key, hkey', rfl⟩ := Accumulator.set_eq_ok hset
      rw [hkey] at hkey'
      cases hkey'
      exact Accumulator.mem_keys_insert.mpr (.inl rfl)
    · rw [he] at h; cases h
  obtain ⟨entry, hentry, hint⟩ :=
    List.mem_map.mp ((foldElements_grows hsound hrest).keys_subset _ hmem)
  have hfit := (hfits entry hentry).1
  rw [hint] at hfit
  exact Int.not_le.mpr hn (Value.fitsInt_iff.mp hfit).1

/-! ## Expressions -/

theorem applyBinary_ok_iff {spelling nodeType : String} {op : BinaryOperator} {a b v : Value} :
    applyBinary spelling nodeType op a b = .ok v ↔ Value.apply op a b = .ok v := by
  unfold applyBinary
  split
  next cause h =>
    rw [h]
    split
    · exact ⟨fun h => (by cases h), fun h => (by cases h)⟩
    · exact ⟨fun h => (by cases h), fun h => (by cases h)⟩
  next => exact Iff.rfl

theorem namedConstant_fits (hF : F.SuppliesFitting) {written : String} {v : Value}
    (h : F.namedConstant written = .ok v) : v.fits = true := by
  unfold namedConstant at h
  simp only at h
  split at h
  · cases h
  · split at h
    next w hw => cases h; exact BuiltinConstants.literal?_fits hw
    next =>
      split at h
      next w hw =>
        cases h
        split at hw
        · exact hF.magic _ (mem_of_lookup hw)
        · cases hw
      next =>
        split at h
        next w hw => cases h; exact BuiltinConstants.value?_fits hw
        next => cases h

/-- An expression that leaks has a value that does not fit. -/
theorem Leaks.fold_ok {n : Node} {s : σ} (h : F.Leaks n s) :
    ∃ v, (F.fold n).outcome s = .ok v ∧ v.fits = false := by
  cases h with
  | literal hn hk h =>
    rename_i k
    have hsmall : ¬intMax < k := by unfold intMin at h; unfold intMax; omega
    refine ⟨.int k, ?_, Bool.eq_false_iff.mpr fun hk => ?_⟩
    · rw [fold_done (o := Literal.integer (F.text n)) (by rw [plan, hn]), Literal.integer_eq, hk]
      exact if_neg hsmall
    · exact Int.not_le.mpr h (Value.fitsInt_iff.mp hk).1
  | unary hn hop hc h =>
    rw [fold_unary hn hc]
    obtain ⟨k, hk, hwide⟩ := h.toNumber
    rcases hop with rfl | rfl
    · exact ⟨.int k, hk, hwide⟩
    · refine ⟨.int (-k - 1), ?_, Bool.eq_false_iff.mpr fun hfits => ?_⟩
      · show (do return Value.int (-(← Value.toInt _) - 1)) = _
        unfold Value.toInt Value.number
        rw [hk]
        rfl
      · have := Value.fitsInt_iff.mp hfits
        rw [Value.fitsInt_iff.mpr (by omega)] at hwide
        cases hwide
  | quotient hn hl hr h =>
    rw [fold_binary hn hl hr]
    refine ⟨.int (intMin / -1), applyBinary_ok_iff.mpr ?_, by decide⟩
    show Value.divide _ _ = _
    unfold Value.divide
    rw [h.1, h.2]
    rfl
  | binary hn hl hr _ ho h => exact ⟨_, (fold_binary hn hl hr).trans (applyBinary_ok_iff.mpr ho), h⟩
  | nextIndex hn hb h =>
    refine ⟨_, fold_array_ok hn hb, Bool.eq_false_iff.mpr fun hfits => ?_⟩
    have hfits := Accumulator.value_fits_iff.mp hfits
    exact Int.not_le.mpr h ((foldElements_sound hb).next_le hfits)
  | lowKey hn hall hb ht he hk h =>
    subst ht
    exact ⟨_, fold_array_ok hn hall, Bool.eq_false_iff.mpr fun hfits =>
      not_fits_of_lowKey hall hb he hk h (Accumulator.value_fits_iff.mp hfits)⟩

/-- What is known from a node alone fits, unless it is a literal that leaks. -/
theorem done_fits (hF : F.SuppliesFitting) {n : Node} {s : σ} {v : Value}
    (h : F.plan n = .done (.ok v)) (hleaks : ¬F.Leaks n s) : v.fits = true := by
  have text {P : Outcome Unit} {Q : Outcome Text} :
      Yields (fun v => v.fits = true) (do P; return Value.text (← Q)) :=
    (Yields.any _).bind fun _ _ => (Yields.any _).bind fun _ _ => yields_ok rfl
  have float {o : Outcome Float} : Yields (fun v => v.fits = true) (do return Value.float (← o)) :=
    (Yields.any _).bind fun _ _ => yields_ok rfl
  have hleaf := Leaf.of_plan h
  generalize ho : (Except.ok v : Outcome Value) = o at hleaf
  cases hleaf with
  | integer hform =>
    rw [Literal.integer_eq] at ho
    split at ho
    next => cases ho
    next k hk =>
      split at ho
      next => exact float v ho.symm
      next hmax =>
        cases ho
        refine Value.fitsInt_iff.mpr ⟨?_, Int.not_lt.mp hmax⟩
        exact Int.not_lt.mp fun hmin => hleaks (.literal hform hk hmin)
  | float =>
    unfold Literal.float at ho
    split at ho <;> cases ho
    rfl
  | string =>
    unfold string at ho
    split at ho
    · exact text v ho.symm
    · cases ho; rfl
  | encapsed => exact text v ho.symm
  | heredoc => exact text v ho.symm
  | name => exact namedConstant_fits hF ho.symm
  | truth | null | nowdoc => cases ho; rfl
  | refused => cases ho

/-- An expression has a value that fits if its operands have and it does not leak. -/
theorem fits_of_operands (hF : F.SuppliesFitting) {n : Node} {s : σ} {v : Value}
    (h : (F.fold n).outcome s = .ok v)
    (hfits : ∀ c t v, F.Operand n s c t → (F.fold c).outcome t = .ok v → v.fits = true)
    (hleaks : ¬F.Leaks n s) : v.fits = true := by
  cases fold_ok_cases h with
  | done hn => exact done_fits hF hn hleaks
  | constant hn ho =>
    unfold resolve at ho
    split at ho
    · cases ho
    next resolve hresolve => exact hF.constants resolve hresolve _ _ _ _ ho
  | operand ho hc => exact hfits _ _ _ ho hc
  | unary hn hc ho =>
    rename_i c a operator
    unfold applyUnary at ho
    cases happly : Value.applyUnary? operator a with
    | none => rw [happly] at ho; cases ho
    | some o =>
      rw [happly] at ho
      exact Value.applyUnary?_yields happly (hfits _ _ _ (.unary hn) hc)
        (fun ⟨hop, hwide⟩ => hleaks (.unary hn hop hc hwide)) v ho
  | binary hn hl hr ho =>
    rename_i a b _ op
    have ho := applyBinary_ok_iff.mp ho
    have ha := hfits _ _ _ (.left hn) hl
    have hb := hfits _ _ _ (.right hn hl) hr
    by_cases hwide : a.IsWide ∨ b.IsWide
    · -- on a wide text every operator leaks whose result does not fit
      exact Decidable.byContradiction fun hv =>
        hleaks (.binary hn hl hr hwide ho (Bool.eq_false_iff.mpr hv))
    · refine Value.apply_yields ha hb (fun h => hwide (.inl h)) (fun h => hwide (.inr h)) ?_ v ho
      rintro ⟨rfl, hleast⟩
      exact hleaks (.quotient hn hl hr hleast)
  | array hn hb => exact array_fits hn hb hfits hleaks

/-- With magic and class constants that fit, all values that a fold comes to fit if and
only if it reaches no expression that leaks. -/
theorem fold_fits_iff {F : Folder σ} (hF : F.SuppliesFitting) {n : Node} {s : σ} :
    (∀ m t v, F.Reaches n s m t → (F.fold m).outcome t = .ok v → v.fits = true)
      ↔ ∀ m t, F.Reaches n s m t → ¬F.Leaks m t := by
  constructor
  · intro h m t hr hleaks
    obtain ⟨v, hv, hfits⟩ := hleaks.fold_ok
    rw [h m t v hr hv] at hfits
    cases hfits
  · intro h m
    -- on the size of the expression, since its operands are smaller
    induction hsize : m.size using Nat.strongRecOn generalizing m with
    | ind k ih =>
      intro t v hr hv
      refine fits_of_operands hF hv (fun c u w ho hw => ?_) (h m t hr)
      exact ih c.size (hsize ▸ ho.size_lt) c rfl u w (hr.trans ho.reaches) hw

/-- The text of the integer after the greatest one. -/
def wideText : Text :=
  ⟨['9', '2', '2', '3', '3', '7', '2', '0', '3', '6', '8', '5', '4', '7', '7', '5', '8', '0',
    '8'].map CodePoint.ofChar⟩

/-- A reference to a class constant. -/
def constantNode : Node :=
  ⟨"class_constant_access_expression", 1, 5, none, true, false,
    [⟨"name", 1, 2, none, true, false, []⟩, ⟨"name", 4, 5, none, true, false, []⟩]⟩

/-- A plus sign before it. -/
def plusNode : Node :=
  ⟨"unary_op_expression", 0, 5, none, true, false,
    [⟨"+", 0, 1, none, false, false, []⟩, constantNode]⟩

/-- A folder whose class constants all are that text. -/
def wideTextFolder : Folder Unit where
  text := fun _ => "+"
  classConstant := some fun _ _ => pure (.text wideText)
  magic := []

theorem not_fits_plusNode : wideTextFolder.SuppliesFitting
    ∧ ¬∀ m t v, wideTextFolder.Reaches plusNode () m t →
      (wideTextFolder.fold m).outcome t = .ok v → v.fits = true := by
  have hsupplies : wideTextFolder.SuppliesFitting :=
    ⟨fun _ h => (by cases h), fun _ h _ _ _ _ hv => by cases h; cases hv; rfl⟩
  have hplan : wideTextFolder.plan constantNode = .constant "+" "+" := rfl
  have hfold : (wideTextFolder.fold constantNode).outcome () = .ok (.text wideText) := by
    rw [fold_eq, hplan]
    rfl
  have hwide : (Value.text wideText).IsWide := ⟨wideText, 9223372036854775808, rfl, by decide, rfl⟩
  exact ⟨hsupplies, fun h => (fold_fits_iff hsupplies).mp h plusNode () .refl
    (.unary (show _ = FoldPlan.unary "+" constantNode from rfl) (.inl rfl) hfold hwide)⟩

end Folder

end StaticReflection
