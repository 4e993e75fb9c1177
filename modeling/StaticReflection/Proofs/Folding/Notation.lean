import Mathlib.Algebra.Group.Nat.Defs
import StaticReflection.Grammar.Program
import StaticReflection.Proofs.Decimal.Overflow
import StaticReflection.Proofs.Folding.Plan
import StaticReflection.Proofs.Grammar.Literal

/-!
# Folding integers in any notation

The literal of a natural number, in whichever of the four notations it is written
(`Numeral.Writes`), denotes that number. Below `2 ^ 1023` there are neither too many decimal digits
nor is there no nearest double, so the literal always has a value:

> `Folder.fold_notations`: it folds to the integer if that fits 64 bits, and to the nearest double
> otherwise; and wherever it stands as an expression, the grammar reads it as a whole.
-/

namespace StaticReflection

open Grammar

theorem Binary64.lt_overflow_of_lt {m : Nat} (h : m < 2 ^ 1023) : m < overflow := by
  -- variables for the exponents keep the powers from being written out
  obtain ⟨k, hk⟩ : ∃ k, k = 970 := ⟨_, rfl⟩
  obtain ⟨j, hj⟩ : ∃ j, j = 1023 := ⟨_, rfl⟩
  have hsum : k + 53 = j := by omega
  have hpow : 2 * fractions * Nat.pow 2 k = Nat.pow 2 j := by rw [fractions_mul_pow k, hsum]
  have hle : 2 * fractions * Nat.pow 2 k ≤ (2 * (2 * fractions) - 1) * Nat.pow 2 k :=
    Nat.mul_le_mul_right _ (by decide)
  rw [hpow] at hle
  rw [← hj] at h
  rw [overflow, ← hk]
  exact Nat.lt_of_lt_of_le h hle

theorem Numeral.length_toDigits_le {m : Nat} (h : m < 2 ^ 1023) :
    ¬maxDigits < (Nat.toDigits 10 m).length := by
  obtain ⟨j, hj⟩ : ∃ j, j = 1023 := ⟨_, rfl⟩
  rw [← hj] at h
  have hle : j ≤ maxDigits := by
    rw [hj]
    decide
  have hpow : m < 10 ^ maxDigits :=
    calc m < 2 ^ j := h
      _ ≤ 10 ^ j := Nat.pow_le_pow_left (by decide) j
      _ ≤ 10 ^ maxDigits := Nat.pow_le_pow_right (by decide) hle
  exact Nat.not_lt.mpr ((Nat.length_toDigits_le_iff (by decide) (by decide)).mpr hpow)

namespace Folder

variable {σ : Type}

/-- A node folds to a natural number, without changing the state: to the integer if it fits 64
bits, and to the double nearest to it otherwise. -/
def FoldsToNumber (F : Folder σ) (n : Node) (m : Nat) : Prop :=
  ∀ st : σ, (F.fold n).after st = st
    ∧ ((m : Int) ≤ intMax → (F.fold n).outcome st = .ok (.int m))
    ∧ (intMax < m → ∃ x, Binary64.ofInt? m = some x ∧ (F.fold n).outcome st = .ok (.float x))

/-- The literal of a number below `2 ^ 1023` has a value. -/
theorem foldsToNumber_of_writes {m base : Nat} (hm : m < 2 ^ 1023) {cs : List Char}
    (h : Numeral.Writes m base cs) {F : Folder σ} {n : Node} (hkind : n.kind = "integer")
    (htext : F.text n = String.ofList cs) : F.FoldsToNumber n m := by
  have hfold : F.fold n = Folding.lift (if intMax < m then do
      return .float (← Value.floatOfInt m) else .ok (.int m)) := by
    rw [fold_eq, plan, hkind, htext]
    show Folding.lift (Literal.integer (String.ofList cs)) = _
    rw [Literal.integer_writes h, if_neg fun h => Numeral.length_toDigits_le hm h.2]
  intro st
  rw [hfold]
  refine ⟨rfl, fun hfits => ?_, fun hbeyond => ?_⟩
  · rw [if_neg (Int.not_lt.mpr hfits)]
    rfl
  · have hsome : Binary64.ofInt? m ≠ none := fun hnone =>
      absurd (Binary64.lt_overflow_of_lt hm) (Nat.not_lt.mpr (Binary64.ofInt?_eq_none_iff.mp hnone))
    obtain ⟨x, hx⟩ := Option.ne_none_iff_exists'.mp hsome
    refine ⟨x, hx, ?_⟩
    rw [if_pos hbeyond, Value.floatOfInt, hx]
    rfl

/-- Integer literals. A natural number below `2 ^ 1023` in any notation (decimal digits that do not
begin with a zero, unless they are only that, or hexadecimal, octal or binary digits after a mark,
with any number of zeros after the mark, letters in either case and single underscores anywhere
between digits) folds to the integer if it fits 64 bits, and to the nearest double otherwise. And
wherever it stands as an expression, with the end of an expression after it, the grammar reads it as
a whole and as an integer literal. -/
theorem fold_notations {m base : Nat} (hm : m < 2 ^ 1023) {cs : List Char}
    (h : Numeral.Writes m base cs) :
    (∀ {σ : Type} (F : Folder σ) (n : Node), n.kind = "integer" → F.text n = String.ofList cs →
      F.FoldsToNumber n m)
    ∧ ∀ {source : String} {after : List Char} {c : Cursor} (fuel level : Nat),
      c.In source.toList → c.Faces (cs ++ after) → Closes after →
      ∃ n, (rules (fuel + 1)).expression level c = some (n, (c.skip true).token cs.length)
        ∧ ∀ {σ : Type} (F : Folder σ), F.text = (Source.ofString source).text →
          F.FoldsToNumber n m := by
  refine ⟨fun F n hkind htext => foldsToNumber_of_writes hm h hkind htext, ?_⟩
  intro source after c fuel level hin hfaces hafter
  obtain ⟨n, hn, -, hkind, htext⟩ := reads_numeral (rules fuel) level h c after hin hfaces hafter
  refine ⟨n, hn, fun F hF => foldsToNumber_of_writes hm h hkind ?_⟩
  rw [hF, ← htext, textIn, String.ofList_toList]

/-- The least number beyond 64 bits in hexadecimal digits, after a zero and an underscore, at the
end of a statement. -/
def beyondSource : String := "0X0_8000000000000000;"

theorem fold_notations_beyond : ∃ n,
    (rules 1).expression 0 (Cursor.start beyondSource.toList)
      = some (n, (Cursor.start beyondSource.toList).token 20)
      ∧ ∀ {σ : Type} (F : Folder σ), F.text = (Source.ofString beyondSource).text → ∀ st : σ,
        ∃ x, Binary64.ofInt? 0x8000000000000000 = some x
          ∧ (F.fold n).outcome st = .ok (.float x) := by
  have hpadded : Numeral.IsPadded 16 0x8000000000000000 "08000000000000000".toList :=
    ⟨1, by decide +kernel⟩
  have hwrites : Numeral.Writes 0x8000000000000000 16 "0X0_8000000000000000".toList :=
    .marked (by decide) hpadded (.apart '0' (.refl (by decide)))
  have hbound (j : Nat) (hj : 64 ≤ j) : 0x8000000000000000 < 2 ^ j :=
    Nat.lt_of_lt_of_le (m := 2 ^ 64) (by decide) (Nat.pow_le_pow_right (by decide) hj)
  obtain ⟨-, hread⟩ := fold_notations (hbound 1023 (by decide)) hwrites
  have hskip : (Cursor.start beyondSource.toList).skip true = Cursor.start beyondSource.toList :=
    Cursor.skip_of_extra?_eq_none rfl true
  obtain ⟨n, hn, hfold⟩ := hread 0 0 (c := Cursor.start beyondSource.toList) ⟨⟨[], rfl, rfl⟩, rfl⟩
    (.of_rest rfl rfl) (.inl (.sign (x := ';') (by decide)))
  rw [hskip] at hn
  exact ⟨n, hn, fun F hF st => (hfold F hF st).2.2 (by decide)⟩

end Folder

end StaticReflection
