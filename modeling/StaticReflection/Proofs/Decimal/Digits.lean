import StaticReflection.Folding.Literal

/-!
# Reading digits back

Digits of a base up to sixteen read as the number that they denote
(`Numeral.readInt?_of_isDigit`), if they are not decimal and too many; so the digits of a natural
number read as that number (`Numeral.readInt?_toDigits`).
-/

namespace StaticReflection

namespace Numeral

/-- What a test finds of all the characters of a list. -/
theorem forall_mem_of_all {p : Char → Prop} [DecidablePred p] {cs : List Char}
    (h : cs.all (fun c => decide (p c)) = true) : ∀ c ∈ cs, p c := fun c hc =>
  of_decide_eq_true (List.all_eq_true.mp h c hc)

theorem toNat_of_isDigit {c : Char} (h : c.isDigit = true) : 48 ≤ c.toNat ∧ c.toNat ≤ 57 := by
  simp only [Char.isDigit, Bool.and_eq_true, decide_eq_true_eq] at h
  exact h

theorem digitValue_of_isDigit {c : Char} (h : c.isDigit = true) :
    digitValue c = c.toNat - 48 := by
  have hrange := toNat_of_isDigit h
  unfold digitValue
  simp only
  rw [if_pos hrange]

theorem isDigit_ten {c : Char} (h : c.isDigit = true) : isDigit 10 c = true := by
  have hrange := toNat_of_isDigit h
  unfold isDigit
  rw [digitValue_of_isDigit h, decide_eq_true_eq]
  omega

theorem toNat_toLower (c : Char) :
    c.toLower.toNat = if 65 ≤ c.toNat ∧ c.toNat ≤ 90 then c.toNat + 32 else c.toNat := by
  have hiff : 'A'.val ≤ c.val ∧ c.val ≤ 'Z'.val ↔ 65 ≤ c.toNat ∧ c.toNat ≤ 90 :=
    and_congr UInt32.le_iff_toNat_le UInt32.le_iff_toNat_le
  unfold Char.toLower
  split
  next h =>
    have hrange := hiff.mp h
    rw [if_pos hrange]
    show (c.val + 32).toNat = c.toNat + 32
    rw [UInt32.toNat_add]
    show (c.toNat + 32) % 4294967296 = c.toNat + 32
    omega
  next h => rw [if_neg fun hrange => h (hiff.mpr hrange)]

/-- Digits are worth the same in either case. -/
theorem digitValue_toLower (c : Char) : digitValue c.toLower = digitValue c := by
  have hlower := toNat_toLower c
  unfold digitValue
  simp only
  by_cases hupper : 65 ≤ c.toNat ∧ c.toNat ≤ 90
  · rw [if_pos hupper] at hlower
    rw [hlower, if_neg (by omega), if_pos (by omega), if_neg (by omega), if_neg (by omega),
      if_pos hupper]
    omega
  · rw [if_neg hupper] at hlower
    rw [hlower]

theorem isDigit_toLower (base : Nat) (c : Char) : isDigit base c.toLower = isDigit base c := by
  unfold isDigit
  rw [digitValue_toLower]

/-- The digits of a base up to sixteen are figures and the first letters, in either case. -/
theorem range_of_isDigit {base : Nat} (hbase : base ≤ 16) {c : Char} (h : isDigit base c = true) :
    48 ≤ c.toNat ∧ c.toNat ≤ 57 ∨ 65 ≤ c.toNat ∧ c.toNat ≤ 70 ∨ 97 ≤ c.toNat ∧ c.toNat ≤ 102 := by
  unfold isDigit digitValue at h
  simp only [decide_eq_true_eq] at h
  split at h
  · omega
  · split at h
    · omega
    · split at h <;> omega

/-- Figures have no case. -/
theorem toLower_of_isDigit {c : Char} (h : c.isDigit = true) : c.toLower = c := by
  have hrange := toNat_of_isDigit h
  exact Char.toNat_inj.mp ((toNat_toLower c).trans (if_neg (by omega)))

section

variable {base : Nat} {ds : List Char}

theorem isSpace_of_isDigit (hbase : base ≤ 16) {c : Char} (h : isDigit base c = true) :
    isSpace c = false := by
  have hrange := range_of_isDigit hbase h
  have hblank : c ≠ ' ' := by
    rintro rfl
    exact absurd hrange (by decide)
  unfold isSpace
  rw [beq_eq_false_iff_ne.mpr hblank, Bool.or_false, Bool.and_eq_false_iff]
  right
  rw [decide_eq_false_iff_not]
  omega

theorem dropWhile_isSpace {cs : List Char} (h : ∀ c ∈ cs, isSpace c = false) :
    cs.dropWhile isSpace = cs := by
  cases cs with
  | nil => rfl
  | cons c cs =>
    exact List.dropWhile_cons_of_neg (Bool.eq_false_iff.mp (h c (List.mem_cons_self ..)))

/-- Without blanks in it a text is read as it is. -/
theorem trimmed_eq {codes : List CodePoint} (h : ∀ c ∈ codes, isSpace (plain c.val) = false) :
    trimmed codes = codes.map fun c => plain c.val := by
  have hall : ∀ c ∈ codes.map (fun c => plain c.val), isSpace c = false := by
    intro c hc
    obtain ⟨d, hd, rfl⟩ := List.mem_map.mp hc
    exact h d hd
  unfold trimmed
  simp only
  rw [dropWhile_isSpace hall, dropWhile_isSpace fun c hc => hall c (List.mem_reverse.mp hc),
    List.reverse_reverse]

/-- Digits count as themselves, and nothing is trimmed from them. -/
theorem trimmed_of_isDigit (hbase : base ≤ 16) (h : ∀ c ∈ ds, isDigit base c = true) :
    trimmed (ds.map CodePoint.ofChar) = ds := by
  have hplain {c : Char} (hc : c ∈ ds) : plain (CodePoint.ofChar c).val = c := by
    have hrange := range_of_isDigit hbase (h c hc)
    show plain c.toNat = c
    unfold plain
    rw [if_pos (by omega), Char.ofNat_toNat]
  rw [trimmed_eq, List.map_map]
  · exact (List.map_congr_left fun c hc => hplain hc).trans (List.map_id ds)
  · intro d hd
    obtain ⟨c, hc, rfl⟩ := List.mem_map.mp hd
    rw [hplain hc]
    exact isSpace_of_isDigit hbase (h c hc)

theorem digits?_of_isDigit (hbase : base ≤ 16) (h : ∀ c ∈ ds, isDigit base c = true)
    (hne : ds ≠ []) : digits? base ds = some ds := by
  induction ds with
  | nil => exact absurd rfl hne
  | cons c ds ih =>
    obtain ⟨hc, hds⟩ := List.forall_mem_cons.mp h
    cases ds with
    | nil =>
      show (if isDigit base c = true then some [c] else none) = some [c]
      rw [if_pos hc]
    | cons d ds =>
      have hunder : d ≠ '_' := by
        rintro rfl
        exact absurd (range_of_isDigit hbase (hds '_' (List.mem_cons_self ..))) (by decide)
      have hplain (rest : List Char) : d :: ds = '_' :: rest → False := fun he =>
        hunder (List.cons.inj he).1
      rw [digits?.eq_4 _ _ _ (List.cons_ne_nil d ds) hplain, if_pos hc,
        ih hds (List.cons_ne_nil d ds)]
      rfl

theorem takeSign_of_isDigit (hbase : base ≤ 16) (h : ∀ c ∈ ds, isDigit base c = true) :
    takeSign ds = (false, ds) := by
  unfold takeSign
  split
  next => exact absurd (range_of_isDigit hbase (h '-' (List.mem_cons_self ..))) (by decide)
  next => exact absurd (range_of_isDigit hbase (h '+' (List.mem_cons_self ..))) (by decide)
  next => rfl

/-- Digits do not announce their base: the letters that do are digits of greater ones. -/
theorem dropBase_of_isDigit (h : ∀ c ∈ ds, isDigit base c = true) : dropBase base ds = ds := by
  unfold dropBase
  split
  next c rest letter hletter =>
    have hc : isDigit base c = true := h c (List.mem_cons_of_mem _ (List.mem_cons_self ..))
    rw [if_neg]
    rintro rfl
    rw [← isDigit_toLower] at hc
    unfold baseLetter? at hletter
    split at hletter
    next h16 =>
      rw [← Option.some.inj hletter, h16] at hc
      exact absurd hc (by decide)
    next =>
      split at hletter
      next h8 =>
        rw [← Option.some.inj hletter, h8] at hc
        exact absurd hc (by decide)
      next =>
        split at hletter
        next h2 =>
          rw [← Option.some.inj hletter, h2] at hc
          exact absurd hc (by decide)
        next => cases hletter
  next => rfl

/-- Digits read as the number that they denote, unless they are decimal and too many. -/
theorem readInt?_of_isDigit (hbase : base ≤ 16) (h : ∀ c ∈ ds, isDigit base c = true)
    (hne : ds ≠ []) :
    readInt? base (ds.map CodePoint.ofChar)
      = if base = 10 ∧ maxDigits < ds.length then none else some (ofDigits base ds : Int) := by
  unfold readInt?
  simp only [trimmed_of_isDigit hbase h, takeSign_of_isDigit hbase h, dropBase_of_isDigit h,
    digits?_of_isDigit hbase h hne]
  rfl

end

/-! ## The digits of a number -/

theorem digitValue_digitChar : ∀ d < 16, digitValue d.digitChar = d := by decide

section

variable {base : Nat} (hone : 1 < base) (hbase : base ≤ 16)

include hone hbase

theorem isDigit_of_mem_toDigits {m : Nat} {c : Char} (hc : c ∈ Nat.toDigits base m) :
    isDigit base c = true := by
  have hdigit {d : Nat} (hd : d < base) : isDigit base d.digitChar = true := by
    unfold isDigit
    rw [digitValue_digitChar d (by omega), decide_eq_true hd]
  induction m using Nat.strongRecOn with
  | _ m ih =>
    by_cases hsmall : m < base
    · rw [Nat.toDigits_of_lt_base hsmall, List.mem_singleton] at hc
      exact hc ▸ hdigit hsmall
    · have hge : base ≤ m := Nat.not_lt.mp hsmall
      rw [Nat.toDigits_of_base_le hone hge, List.mem_append, List.mem_singleton] at hc
      rcases hc with hc | rfl
      · exact ih (m / base) (Nat.div_lt_self (by omega) hone) hc
      · exact hdigit (Nat.mod_lt m (by omega))

/-- The digits of a number denote it. -/
theorem ofDigits_toDigits (m : Nat) : ofDigits base (Nat.toDigits base m) = m := by
  induction m using Nat.strongRecOn with
  | _ m ih =>
    by_cases hsmall : m < base
    · rw [Nat.toDigits_of_lt_base hsmall]
      show 0 * base + digitValue m.digitChar = m
      rw [digitValue_digitChar m (by omega), Nat.zero_mul, Nat.zero_add]
    · have hge : base ≤ m := Nat.not_lt.mp hsmall
      have hlast : m % base < 16 := Nat.lt_of_lt_of_le (Nat.mod_lt m (by omega)) hbase
      have hrest := ih (m / base) (Nat.div_lt_self (by omega) hone)
      unfold ofDigits at hrest ⊢
      rw [Nat.toDigits_of_base_le hone hge, List.foldl_append, hrest]
      show m / base * base + digitValue (m % base).digitChar = m
      rw [digitValue_digitChar _ hlast, Nat.div_add_mod']

end

/-- The digits of a number read as that number, unless there are too many. -/
theorem readInt?_toDigits (m : Nat) :
    readInt? 10 ((Nat.toDigits 10 m).map CodePoint.ofChar)
      = if maxDigits < (Nat.toDigits 10 m).length then none else some (m : Int) := by
  rw [readInt?_of_isDigit (by decide) (fun c => isDigit_of_mem_toDigits (by decide) (by decide))
    Nat.toDigits_ne_nil, ofDigits_toDigits (by decide) (by decide)]
  simp only [true_and]

/-- Digits do not begin with a zero, unless there is only that. -/
theorem toDigits_head {m : Nat} (hm : 0 < m) :
    ∃ c rest, Nat.toDigits 10 m = c :: rest ∧ c ≠ '0' := by
  induction m using Nat.strongRecOn with
  | _ m ih =>
    by_cases hsmall : m < 10
    · rw [Nat.toDigits_of_lt_base hsmall]
      refine ⟨m.digitChar, [], rfl, ?_⟩
      intro hzero
      exact absurd (Nat.digitChar_eq_zero.mp hzero) (by omega)
    · obtain ⟨c, rest, hdigits, hc⟩ := ih (m / 10) (by omega) (by omega)
      rw [Nat.toDigits_of_base_le (by decide) (by omega), hdigits]
      exact ⟨c, rest ++ [(m % 10).digitChar], rfl, hc⟩

end Numeral

end StaticReflection
