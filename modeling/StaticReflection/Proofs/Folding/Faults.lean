import StaticReflection.Proofs.Folding.Literals
import StaticReflection.Proofs.Folding.Reach

/-!
# When folding fails without a report

An expression that is no constant is reported: the failure is `Unfoldable`. A fault
is not, and ends whatever asked for the value. `Folder.Trips` lists the expressions
that give one although their operands have values: literals that cannot be read,
`\u{…}` beyond the last code point, the negative of an integer too large for a
double, and array keys that are infinite, no number, or an integer of too many digits.

> `fold_escapes_iff`: a fold fails without a report if and only if it reaches an
> expression that trips, or a class constant whose resolver does not report.

Nothing else does: the faults of the binary operators are all reported.
-/

namespace StaticReflection

open Folding Outcome

namespace Folder

variable {σ : Type} (F : Folder σ)

/-- The characters of a string in which escapes are read, if it is double-quoted or a
heredoc and nothing is interpolated in it. -/
def escapedText? (n : Node) : Option (List Char) :=
  if !(Node.interpolatedParts n.children).isEmpty then none
  else match ExprForm.ofKind? n.kind with
    | some .string =>
      match Literal.dropBinaryMark (F.text n).toList with
      | '"' :: cs => some (Literal.inner ('"' :: cs))
      | _ => none
    | some .encapsed => some (Literal.inner (Literal.dropBinaryMark (F.text n).toList))
    | some .heredoc => some (Literal.heredocBody (F.text n).toList)
    | _ => none

/-- An expression whose operands have values gives a fault that nothing reports. -/
inductive Trips : Node → σ → Prop
  /-- A child that the expression must have is not there. -/
  | lacking {n : Node} {s : σ} (h : F.plan n = .lacking) : Trips n s
  | integer {n : Node} {s : σ} (hn : ExprForm.ofKind? n.kind = some .integer)
      (h : Literal.IsNoInteger (F.text n)) : Trips n s
  | float {n : Node} {s : σ} (hn : ExprForm.ofKind? n.kind = some .float)
      (h : Numeral.readFloat? (Text.ofString (Literal.dropUnderscores (F.text n))).codes = none) :
      Trips n s
  | escape {n : Node} {s : σ} {cs : List Char} (hn : F.escapedText? n = some cs)
      (h : Literal.NamesNoCode 0 cs) : Trips n s
  | negation {n c : Node} {s : σ} {v : Value} {k : Int} (hn : F.plan n = .unary "-" c)
      (hc : (F.fold c).outcome s = .ok v) (hv : v.number = .ok (.int k))
      (h : Binary64.overflow ≤ k.natAbs) : Trips n s
  /-- A child that an element must have is not there. -/
  | element {n e : Node} {before rest : List Node} {s : σ} {acc : Accumulator}
      (hn : F.plan n = .array (before ++ e :: rest))
      (hb : (F.foldElements before Accumulator.empty).outcome s = .ok acc)
      (h : e.elementPlan = .lacking) : Trips n s
  | key {n e k i : Node} {before rest : List Node} {s t : σ} {acc : Accumulator} {a v : Value}
      (hn : F.plan n = .array (before ++ e :: rest))
      (hb : (F.foldElements before Accumulator.empty).outcome s = .ok acc)
      (ht : (F.foldElements before Accumulator.empty).after s = t)
      (he : e.elementPlan = .keyed k i) (hk : (F.fold k).outcome t = .ok a)
      (hi : (F.fold i).outcome ((F.fold k).after t) = .ok v)
      (h : Key.isFaulty a = true) : Trips n s
  | spread {n e c : Node} {before rest : List Node} {s t : σ} {acc : Accumulator} {v : Value}
      {entry : Key × Value} (hn : F.plan n = .array (before ++ e :: rest))
      (hb : (F.foldElements before Accumulator.empty).outcome s = .ok acc)
      (ht : (F.foldElements before Accumulator.empty).after s = t)
      (he : e.elementPlan = .spread c) (hc : (F.fold c).outcome t = .ok v)
      (hv : entry ∈ v.entries) (h : Key.isFaulty entry.1.toValue = true) : Trips n s

/-- A class constant whose resolver fails without a report. -/
def ResolverEscapes (n : Node) (s : σ) : Prop :=
  ∃ scope name, F.plan n = .constant scope name ∧ ((F.resolve n scope name).outcome s).Escapes

variable {F}

theorem plainString_failsOnly (n : Node) :
    (F.plainString n).FailsOnly Failure.isUnfoldable := by
  unfold plainString
  split
  · exact failsOnly_unfoldable
  · exact failsOnly_ok

theorem plainString_ok_iff {n : Node} {u : Unit} :
    F.plainString n = .ok u ↔ (Node.interpolatedParts n.children).isEmpty = true := by
  unfold plainString
  rw [List.isEmpty_iff]
  split
  next c h =>
    refine ⟨fun h => (by cases h), fun hnil => ?_⟩
    rw [hnil] at h
    cases h
  next h => exact ⟨fun _ => List.getLast?_eq_none_iff.mp h, fun _ => rfl⟩

/-- A string in which escapes are read fails without a report because of one of them. -/
theorem escapedString_escapes_iff {n : Node} {cs : List Char} :
    Escapes (do
        F.plainString n
        return Value.text (← Literal.unescapeDouble cs))
      ↔ (Node.interpolatedParts n.children).isEmpty = true ∧ Literal.NamesNoCode 0 cs := by
  have hrest : Escapes (do return Value.text (← Literal.unescapeDouble cs))
      ↔ Literal.NamesNoCode 0 cs :=
    (escapes_bind_iff_left fun _ _ => not_escapes_ok).trans Literal.unescapeDouble_escapes_iff
  refine (escapes_bind_iff_right (plainString_failsOnly n)).trans ⟨?_, ?_⟩
  · rintro ⟨u, hu, h⟩
    exact ⟨plainString_ok_iff.mp hu, hrest.mp h⟩
  · rintro ⟨hn, h⟩
    exact ⟨(), plainString_ok_iff.mpr hn, hrest.mpr h⟩

theorem namedConstant_failsOnly (written : String) :
    (F.namedConstant written).FailsOnly Failure.isUnfoldable := by
  unfold namedConstant
  simp only
  repeat' split
  all_goals first
    | exact failsOnly_ok
    | exact failsOnly_unfoldable

/-- What is known from a node alone is a fault only for some literals. -/
theorem Trips.of_done {n : Node} {s : σ} {o : Outcome Value} (h : F.plan n = .done o)
    (ho : o.Escapes) : F.Trips n s := by
  have never {o' : Outcome Value} (ho' : o'.FailsOnly Failure.isUnfoldable) (hesc : o'.Escapes) :
      F.Trips n s := (ho'.not_escapes hesc).elim
  cases Leaf.of_plan h with
  | integer hform => exact .integer hform (Literal.integer_escapes_iff.mp ho)
  | float hform => exact .float hform (Literal.float_escapes_iff.mp ho)
  | truth | null | nowdoc => exact never failsOnly_ok ho
  | refused => exact never failsOnly_unfoldable ho
  | name => exact never (namedConstant_failsOnly _) ho
  | string hform =>
    unfold string at ho
    split at ho
    next cs hcs =>
      unfold encapsed at ho
      rw [hcs] at ho
      obtain ⟨hn, hbad⟩ := escapedString_escapes_iff.mp ho
      exact .escape (by rw [escapedText?, hn, hform]; simp only [hcs]; rfl) hbad
    next => exact (not_escapes_ok ho).elim
  | encapsed hform =>
    obtain ⟨hn, hbad⟩ := escapedString_escapes_iff.mp ho
    exact .escape (by rw [escapedText?, hn, hform]; rfl) hbad
  | heredoc hform =>
    obtain ⟨hn, hbad⟩ := escapedString_escapes_iff.mp ho
    exact .escape (by rw [escapedText?, hn, hform]; rfl) hbad

/-- An expression that trips fails alone, and without a report. -/
theorem Trips.failsAlone {n : Node} {s : σ} (h : F.Trips n s) :
    ∃ f, F.FailsAlone n s f ∧ f.isUnfoldable = false := by
  have done {o : Outcome Value} (hn : F.plan n = .done o) (ho : o.Escapes) :
      ∃ f, F.FailsAlone n s f ∧ f.isUnfoldable = false := by
    obtain ⟨f, rfl, hf⟩ := ho
    exact ⟨f, .done hn, hf⟩
  cases h with
  | lacking h => exact ⟨_, .lacking h, rfl⟩
  | integer hn h => exact done (by rw [plan, hn]) (Literal.integer_escapes_iff.mpr h)
  | float hn h => exact done (by rw [plan, hn]) (Literal.float_escapes_iff.mpr h)
  | escape hn h =>
    unfold escapedText? at hn
    split at hn
    · cases hn
    next hplain =>
      have hempty : (Node.interpolatedParts n.children).isEmpty = true := by
        simpa using hplain
      split at hn
      next hform =>
        split at hn
        next cs hcs =>
          obtain rfl := Option.some.inj hn
          refine done (o := F.string n) (by rw [plan, hform]) ?_
          unfold string encapsed
          rw [hcs]
          exact escapedString_escapes_iff.mpr ⟨hempty, h⟩
        · cases hn
      next hform =>
        obtain rfl := Option.some.inj hn
        exact done (o := F.encapsed n) (by rw [plan, hform])
          (escapedString_escapes_iff.mpr ⟨hempty, h⟩)
      next hform =>
        obtain rfl := Option.some.inj hn
        exact done (o := F.heredoc n) (by rw [plan, hform])
          (escapedString_escapes_iff.mpr ⟨hempty, h⟩)
      · cases hn
  | negation hn hc hv h =>
    obtain ⟨f, he, hf⟩ :=
      (Value.applyUnary?_escapes_iff (show Value.applyUnary? "-" _ = some _ from rfl)).mpr
        ⟨rfl, _, hv, h⟩
    exact ⟨f, .unary hn hc he, hf⟩
  | element hn hb h => exact ⟨_, .element hn hb (.lacking h), rfl⟩
  | key hn hb ht he hk hi h =>
    obtain ⟨f, ho, hf⟩ := Accumulator.set_escapes_iff.mpr h
    subst ht
    exact ⟨f, .element hn hb (.keyed he hk hi ho), hf⟩
  | spread hn hb ht he hc hv h =>
    obtain ⟨f, ho, hf⟩ := Accumulator.extend_escapes_iff.mpr ⟨_, hv, h⟩
    subst ht
    exact ⟨f, .element hn hb (.spread he hc ho), hf⟩

/-- The faults of operators are reported. -/
theorem applyBinary_failsOnly (spelling nodeType : String) (op : BinaryOperator) (a b : Value) :
    (applyBinary spelling nodeType op a b).FailsOnly Failure.isUnfoldable := by
  intro f hf
  have hreported := Value.apply_failsOnly op a b
  unfold applyBinary at hf
  split at hf
  next cause happly =>
    have harith : cause.isArithmetic = true := hreported _ happly
    rw [if_pos harith] at hf
    cases hf
    rfl
  next hother =>
    have h := hreported f hf
    cases f with
    | fault cause => exact (hother cause hf).elim
    | _ => exact h

/-- An expression that fails alone without a report trips, or its resolver does not report. -/
theorem FailsAlone.trips {n : Node} {s : σ} {f : Failure} (h : F.FailsAlone n s f)
    (hf : f.isUnfoldable = false) : F.Trips n s ∨ F.ResolverEscapes n s := by
  cases h with
  | done h => exact .inl (.of_done h ⟨f, rfl, hf⟩)
  | lacking h => exact .inl (.lacking h)
  | constant h ho => exact .inr ⟨_, _, h, f, ho, hf⟩
  | unary h hc ho =>
    rename_i c v operator
    unfold applyUnary at ho
    cases happly : Value.applyUnary? operator v with
    | none => rw [happly] at ho; cases ho; cases hf
    | some o =>
      rw [happly] at ho
      obtain ⟨rfl, k, hv, hk⟩ := (Value.applyUnary?_escapes_iff happly).mp ⟨f, ho, hf⟩
      exact .inl (.negation h hc hv hk)
  -- binary operators report the faults of their operands
  | binary _ _ _ ho => exact ((applyBinary_failsOnly _ _ _ _ _).not_escapes ⟨f, ho, hf⟩).elim
  | element h hb he =>
    cases he with
    | lacking he => exact .inl (.element h hb he)
    | byReference => cases hf
    | spread he hc ho =>
      obtain ⟨e, hmem, hfaulty⟩ := Accumulator.extend_escapes_iff.mp ⟨f, ho, hf⟩
      exact .inl (.spread h hb rfl he hc hmem hfaulty)
    | keyed he hk hi ho =>
      exact .inl (.key h hb rfl he hk hi (Accumulator.set_escapes_iff.mp ⟨f, ho, hf⟩))

/-- Why a fold fails without a report, whatever its resolver does. -/
theorem fold_escapes_iff {n : Node} {s : σ} : ((F.fold n).outcome s).Escapes
    ↔ ∃ m t, F.Reaches n s m t ∧ (F.Trips m t ∨ F.ResolverEscapes m t) := by
  constructor
  · rintro ⟨f, he, hf⟩
    obtain ⟨m, t, hr, hm⟩ := fold_error_iff.mp he
    exact ⟨m, t, hr, hm.trips hf⟩
  · rintro ⟨m, t, hr, h | ⟨scope, name, hn, f, ho, hf⟩⟩
    · obtain ⟨f, hm, hf⟩ := h.failsAlone
      exact ⟨f, hr.error hm.error, hf⟩
    · exact ⟨f, hr.error (FailsAlone.constant hn ho).error, hf⟩

/-- The resolver of class constants reports its failures. -/
def ReportsConstants (F : Folder σ) : Prop :=
  ∀ resolve, F.classConstant = some resolve → ∀ scope name s,
    ((resolve scope name).outcome s).FailsOnly Failure.isUnfoldable

theorem ReportsConstants.not_escapes (h : F.ReportsConstants) (n : Node) (s : σ) :
    ¬F.ResolverEscapes n s := by
  rintro ⟨scope, name, _, hesc⟩
  unfold resolve at hesc
  cases hc : F.classConstant with
  | none => rw [hc] at hesc; exact failsOnly_unfoldable.not_escapes hesc
  | some resolve => rw [hc] at hesc; exact (h resolve hc scope name s).not_escapes hesc

end Folder

end StaticReflection
