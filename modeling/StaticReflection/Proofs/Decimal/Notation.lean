import StaticReflection.Proofs.Decimal.Digits

/-!
# Integers in four notations

A natural number is written with its digits in one of four bases (`Numeral.Writes`): letters in
either case, single underscores anywhere between digits, and but for decimal digits a mark of the
base first and any number of zeros after it. A zero alone is a mark too, for octal digits. The
literal reads the number back, whatever its notation:

> `Literal.integer_writes`: the literal of a number is that number, or the nearest double beyond 64
> bits, if it has not too many decimal digits.
-/

namespace StaticReflection

namespace Numeral

/-- Characters are digits with single underscores put between some of them. -/
inductive Spaced : List Char → List Char → Prop
  | last (d : Char) : Spaced [d] [d]
  | next (d : Char) {ds cs : List Char} (h : Spaced ds cs) : Spaced (d :: ds) (d :: cs)
  | apart (d : Char) {ds cs : List Char} (h : Spaced ds cs) : Spaced (d :: ds) (d :: '_' :: cs)

/-- Characters are the digits of a number in a base, letters in either case, after zeros. -/
def IsPadded (base m : Nat) (ds : List Char) : Prop :=
  ∃ zeros, ds.map Char.toLower = List.replicate zeros '0' ++ Nat.toDigits base m

/-- The bases that a letter after a zero marks. -/
def markedBases : List (Nat × Char) :=
  [(16, 'x'), (16, 'X'), (8, 'o'), (8, 'O'), (2, 'b'), (2, 'B')]

/-- Characters write a natural number in a base. -/
inductive Writes (m : Nat) : Nat → List Char → Prop
  | decimal {cs : List Char} (h : Spaced (Nat.toDigits 10 m) cs) : Writes m 10 cs
  | marked {base : Nat} {mark : Char} {ds cs : List Char}
    (hmark : (base, mark) ∈ markedBases) (hds : IsPadded base m ds) (h : Spaced ds cs) :
    Writes m base ('0' :: mark :: cs)
  | octal {ds cs : List Char} (hds : IsPadded 8 m ds) (h : Spaced ('0' :: ds) cs) : Writes m 8 cs

/-! ## Digits with underscores -/

section

variable {ds cs : List Char}

theorem Spaced.refl (hne : ds ≠ []) : Spaced ds ds := by
  induction ds with
  | nil => exact absurd rfl hne
  | cons d ds ih =>
    cases ds with
    | nil => exact .last d
    | cons e ds => exact .next d (ih (List.cons_ne_nil e ds))

/-- A digit stands first. -/
theorem Spaced.exists_head (h : Spaced ds cs) :
    ∃ d rest more, ds = d :: rest ∧ cs = d :: more := by
  cases h with
  | last d => exact ⟨d, _, _, rfl, rfl⟩
  | next d _ => exact ⟨d, _, _, rfl, rfl⟩
  | apart d _ => exact ⟨d, _, _, rfl, rfl⟩

/-- Without the underscores the digits are left. -/
theorem Spaced.filter (h : Spaced ds cs) (hds : ∀ c ∈ ds, c ≠ '_') :
    cs.filter (· != '_') = ds := by
  induction h with
  | last d => rw [List.filter_eq_self.mpr fun c hc => bne_iff_ne.mpr (hds c hc)]
  | next d _ ih =>
    obtain ⟨hd, hrest⟩ := List.forall_mem_cons.mp hds
    rw [List.filter_cons, if_pos (bne_iff_ne.mpr hd), ih hrest]
  | apart d _ ih =>
    obtain ⟨hd, hrest⟩ := List.forall_mem_cons.mp hds
    rw [List.filter_cons, if_pos (bne_iff_ne.mpr hd), List.filter_cons, if_neg (by decide),
      ih hrest]

end

/-! ## Digits after zeros -/

namespace IsPadded

variable {base m : Nat} {ds : List Char}

theorem ne_nil (h : IsPadded base m ds) : ds ≠ [] := by
  obtain ⟨zeros, h⟩ := h
  rintro rfl
  exact Nat.toDigits_ne_nil (List.append_eq_nil_iff.mp h.symm).2

variable (hone : 1 < base) (hbase : base ≤ 16)

include hone hbase

theorem isDigit_lower (h : IsPadded base m ds) :
    ∀ c ∈ ds.map Char.toLower, isDigit base c = true := by
  obtain ⟨zeros, h⟩ := h
  intro c hc
  rw [h, List.mem_append] at hc
  rcases hc with hc | hc
  · rw [List.eq_of_mem_replicate hc]
    show decide (0 < base) = true
    exact decide_eq_true (by omega)
  · exact isDigit_of_mem_toDigits hone hbase hc

theorem isDigit (h : IsPadded base m ds) : ∀ c ∈ ds, Numeral.isDigit base c = true := by
  intro c hc
  rw [← isDigit_toLower]
  exact h.isDigit_lower hone hbase _ (List.mem_map_of_mem hc)

/-- Zeros in front do not count. -/
theorem ofDigits (h : IsPadded base m ds) : Numeral.ofDigits base (ds.map Char.toLower) = m := by
  obtain ⟨zeros, h⟩ := h
  have hzeros : ∀ k, (List.replicate k '0').foldl (fun n c => n * base + digitValue c) 0 = 0 := by
    intro k
    induction k with
    | zero => rfl
    | succ k ih =>
      rw [List.replicate_succ, List.foldl_cons]
      show List.foldl _ (0 * base + 0) _ = 0
      rw [Nat.zero_mul]
      exact ih
  rw [h]
  unfold Numeral.ofDigits
  rw [List.foldl_append, hzeros]
  exact ofDigits_toDigits hone hbase m

end IsPadded

theorem base_of_mem_markedBases {base : Nat} {mark : Char} (h : (base, mark) ∈ markedBases) :
    1 < base ∧ base ≤ 16 ∧ base ≠ 10 ∧ mark ≠ '_' ∧ mark.toNat < 128
      ∧ ∀ rest : List Char, Literal.integerParts ('0' :: mark.toLower :: rest) = (base, rest) := by
  simp only [markedBases, List.mem_cons, List.not_mem_nil, or_false, Prod.mk.injEq] at h
  rcases h with ⟨rfl, rfl⟩ | ⟨rfl, rfl⟩ | ⟨rfl, rfl⟩ | ⟨rfl, rfl⟩ | ⟨rfl, rfl⟩ | ⟨rfl, rfl⟩ <;>
    exact ⟨by decide, by decide, by decide, by decide, by decide, fun _ => rfl⟩

/-- A literal begins with a figure. -/
theorem Writes.exists_head {m base : Nat} {cs : List Char} (h : Writes m base cs) :
    ∃ x xs, cs = x :: xs ∧ x.isDigit = true := by
  cases h with
  | decimal h =>
    obtain ⟨d, rest, more, hds, rfl⟩ := h.exists_head
    exact ⟨d, more, rfl,
      Nat.isDigit_of_mem_toDigits (by decide) (by decide) (hds ▸ List.mem_cons_self ..)⟩
  | marked => exact ⟨'0', _, rfl, rfl⟩
  | octal _ h =>
    obtain ⟨d, rest, more, hds, rfl⟩ := h.exists_head
    obtain rfl := (List.cons.inj hds).1
    exact ⟨'0', more, rfl, rfl⟩

end Numeral

namespace Literal

open Numeral

/-! ## The value of a literal -/

/-- An integer literal in ASCII is worth what the digits among its parts are. -/
theorem integer_of_parts {cs ds : List Char} {base : Nat} (hbase : base ≤ 16)
    (hascii : ∀ c ∈ cs.filter (· != '_'), c.toNat < 128)
    (hparts : integerParts ((cs.filter (· != '_')).map Char.toLower) = (base, ds))
    (hdigits : ∀ c ∈ ds, isDigit base c = true) (hne : ds ≠ []) :
    integer (String.ofList cs)
      = if base = 10 ∧ maxDigits < ds.length then Outcome.fault .malformedNumber
        else if intMax < ofDigits base ds then do
          return .float (← Value.floatOfInt (ofDigits base ds))
        else .ok (.int (ofDigits base ds)) := by
  have hlower : (LetterCase.lower (dropUnderscores (String.ofList cs))).toList
      = (cs.filter (· != '_')).map Char.toLower := by
    unfold dropUnderscores
    rw [String.toList_ofList, LetterCase.lower_ascii (by rwa [String.toList_ofList]),
      String.toList_ofList, String.toList_ofList]
  unfold integer
  rw [hlower, hparts]
  simp only [readInt?_of_isDigit hbase hdigits hne]
  by_cases hlong : base = 10 ∧ maxDigits < ds.length
  · rw [if_pos hlong, if_pos hlong]
  · rw [if_neg hlong, if_neg hlong]
    rfl

/-- Figures that do not begin with a zero, or are only that, mark no base. -/
theorem integerParts_toDigits (m : Nat) :
    integerParts (Nat.toDigits 10 m) = (10, Nat.toDigits 10 m) := by
  cases Nat.eq_zero_or_pos m with
  | inl hm =>
    subst hm
    rfl
  | inr hm =>
    obtain ⟨c, rest, hcons, hc⟩ := toDigits_head hm
    rw [hcons]
    unfold integerParts
    split
    next heq => exact absurd (List.cons.inj heq).1 hc
    next heq => exact absurd (List.cons.inj heq).1 hc
    next heq => exact absurd (List.cons.inj heq).1 hc
    next heq => exact absurd (List.cons.inj heq).1 hc
    next => rfl

/-- Digits after a zero are octal. -/
theorem integerParts_octal {ds : List Char} (h : ∀ c ∈ ds, isDigit 8 c = true) (hne : ds ≠ []) :
    integerParts ('0' :: ds) = (8, ds) := by
  cases ds with
  | nil => exact absurd rfl hne
  | cons c rest =>
    have hc := h c (List.mem_cons_self ..)
    unfold integerParts
    split
    next heq => rw [(List.cons.inj (List.cons.inj heq).2).1] at hc; exact absurd hc (by decide)
    next heq => rw [(List.cons.inj (List.cons.inj heq).2).1] at hc; exact absurd hc (by decide)
    next heq => rw [(List.cons.inj (List.cons.inj heq).2).1] at hc; exact absurd hc (by decide)
    next heq => cases heq; rfl
    next hnone => exact (hnone c rest rfl).elim

theorem plain_of_isDigit {base : Nat} (hbase : base ≤ 16) {ds : List Char}
    (hds : ∀ c ∈ ds, isDigit base c = true) :
    (∀ c ∈ ds, c ≠ '_') ∧ ∀ c ∈ ds, c.toNat < 128 := by
  refine ⟨?_, fun c hc => ?_⟩
  · rintro c hc rfl
    exact absurd (range_of_isDigit hbase (hds _ hc)) (by decide)
  · have hrange := range_of_isDigit hbase (hds c hc)
    omega

/-- The literal of a number is that number, or the nearest double beyond 64 bits, if it has not too
many decimal digits. -/
theorem integer_writes {m base : Nat} {cs : List Char} (h : Writes m base cs) :
    integer (String.ofList cs)
      = if base = 10 ∧ maxDigits < (Nat.toDigits 10 m).length then Outcome.fault .malformedNumber
        else if intMax < m then do return .float (← Value.floatOfInt m)
        else .ok (.int m) := by
  cases h with
  | decimal h =>
    have hdigits : ∀ c ∈ Nat.toDigits 10 m, isDigit 10 c = true :=
      fun c => isDigit_of_mem_toDigits (by decide) (by decide)
    obtain ⟨hplain, hascii⟩ := plain_of_isDigit (by decide) hdigits
    have hlower : (Nat.toDigits 10 m).map Char.toLower = Nat.toDigits 10 m :=
      (List.map_congr_left fun c hc => toLower_of_isDigit
        (Nat.isDigit_of_mem_toDigits (by decide) (by decide) hc)).trans (List.map_id _)
    rw [integer_of_parts (by decide) ((h.filter hplain).symm ▸ hascii)
      (by rw [h.filter hplain, hlower, integerParts_toDigits]) hdigits Nat.toDigits_ne_nil,
      ofDigits_toDigits (by decide) (by decide)]
  | @marked _ mark ds cs hmark hds h =>
    obtain ⟨hone, hbase, hten, hunder, hmarkAscii, hparts⟩ := base_of_mem_markedBases hmark
    obtain ⟨hplain, hascii⟩ := plain_of_isDigit hbase (hds.isDigit hone hbase)
    have hfilter : ('0' :: mark :: cs).filter (· != '_') = '0' :: mark :: ds := by
      rw [List.filter_cons, if_pos (by decide), List.filter_cons, if_pos (bne_iff_ne.mpr hunder),
        h.filter hplain]
    have hall : ∀ c ∈ '0' :: mark :: ds, c.toNat < 128 :=
      List.forall_mem_cons.mpr ⟨by decide, List.forall_mem_cons.mpr ⟨hmarkAscii, hascii⟩⟩
    have hlower : integerParts (('0' :: mark :: ds).map Char.toLower)
        = (base, ds.map Char.toLower) := hparts _
    have hshort {k : Nat} : ¬(base = 10 ∧ maxDigits < k) := fun h => hten h.1
    rw [integer_of_parts hbase (hfilter.symm ▸ hall) (hfilter.symm ▸ hlower)
      (hds.isDigit_lower hone hbase) (mt List.map_eq_nil_iff.mp hds.ne_nil),
      hds.ofDigits hone hbase, if_neg hshort, if_neg hshort]
  | @octal ds _ hds h =>
    have hdigits := hds.isDigit (by decide) (by decide)
    have hlowerDigits := hds.isDigit_lower (by decide) (by decide)
    have hne : ds.map Char.toLower ≠ [] := mt List.map_eq_nil_iff.mp hds.ne_nil
    have hall : ∀ c ∈ '0' :: ds, isDigit 8 c = true :=
      List.forall_mem_cons.mpr ⟨by decide, hdigits⟩
    obtain ⟨hplain, hascii⟩ := plain_of_isDigit (by decide) hall
    have hlower : integerParts (('0' :: ds).map Char.toLower) = (8, ds.map Char.toLower) :=
      integerParts_octal hlowerDigits hne
    rw [integer_of_parts (by decide) ((h.filter hplain).symm ▸ hascii)
      ((h.filter hplain).symm ▸ hlower) hlowerDigits hne, hds.ofDigits (by decide) (by decide)]
    rfl

/-- The literal that the digits of a number are. -/
theorem integer_toDigits (m : Nat) :
    integer (String.ofList (Nat.toDigits 10 m))
      = if maxDigits < (Nat.toDigits 10 m).length then Outcome.fault .malformedNumber
        else if intMax < m then do return .float (← Value.floatOfInt m)
        else .ok (.int m) := by
  rw [integer_writes (.decimal (.refl Nat.toDigits_ne_nil))]
  simp only [true_and]

end Literal

end StaticReflection
