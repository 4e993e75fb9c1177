import StaticReflection.Proofs.Decimal.Digits
import StaticReflection.Proofs.Value.Faults
import StaticReflection.Proofs.Value.Range

/-!
# Texts that are integer keys

A text has the form of an integer exactly if it is the decimal text of one, or a zero with a minus
sign (`Key.isIntegerText_iff`). So a text is the key of an integer of 64 bits if it is the text of
that integer (`Key.ofText_eq_int_iff`), with the one exception that `-0` is the key zero; a longer
integer is its own text as a key, up to the length that can be read.

> `Key.ofText_inj`: two texts that are the same key are the same text, or `0` and `-0`.
-/

namespace StaticReflection

namespace Text

/-- The text of an integer in decimal digits. -/
def ofInt (n : Int) : Text := ofString (DecimalText.ofInt n)

/-- A zero with a minus sign, which is the text of no integer. -/
def minusZero : Text := ofString "-0"

/-- The text of an integer with more digits than can be read. -/
def IsTooLong (t : Text) : Prop :=
  ∃ n : Int, t = ofInt n ∧ Numeral.maxDigits < (Nat.toDigits 10 n.natAbs).length

/-- The code points of the digits of a number. -/
def digitCodes (m : Nat) : List CodePoint := (Nat.toDigits 10 m).map CodePoint.ofChar

theorem codes_ofInt (n : Int) :
    (ofInt n).codes
      = if n < 0 then CodePoint.ofChar '-' :: digitCodes n.natAbs else digitCodes n.natAbs := by
  unfold ofInt ofString DecimalText.ofInt digitCodes
  simp only [String.toList_ofList]
  split <;> rfl

theorem codes_minusZero : minusZero.codes = CodePoint.ofChar '-' :: digitCodes 0 := rfl

end Text

namespace Key

open Text

/-! ## Digits -/

theorem isDigitCode_ofChar {c : Char} (h : c.isDigit = true) :
    isDigitCode (CodePoint.ofChar c) = true := by
  have hrange := Numeral.toNat_of_isDigit h
  show (decide (48 ≤ c.toNat) && decide (c.toNat ≤ 57)) = true
  simpa using hrange

theorem isDigitCode_of_mem_digitCodes {m : Nat} {c : CodePoint} (h : c ∈ digitCodes m) :
    isDigitCode c = true := by
  obtain ⟨d, hd, rfl⟩ := List.mem_map.mp h
  exact isDigitCode_ofChar (Nat.isDigit_of_mem_toDigits (by decide) (by decide) hd)

/-- A digit is that of a number below ten. -/
theorem exists_digitChar {c : CodePoint} (h : isDigitCode c = true) :
    ∃ d < 10, c = CodePoint.ofChar d.digitChar := by
  simp only [isDigitCode, Bool.and_eq_true, decide_eq_true_eq] at h
  refine ⟨c.val - 48, by omega, Fin.ext ?_⟩
  show c.val = (c.val - 48).digitChar.toNat
  rw [Nat.toNat_digitChar_of_lt_ten (by omega)]
  omega

/-- Digits after those of a positive number are the digits of a number. -/
theorem exists_toDigits_append {codes : List CodePoint} (h : ∀ c ∈ codes, isDigitCode c = true)
    {n : Nat} (hn : 0 < n) : ∃ m, digitCodes n ++ codes = digitCodes m := by
  induction codes generalizing n with
  | nil => exact ⟨n, List.append_nil _⟩
  | cons c rest ih =>
    obtain ⟨hc, hrest⟩ := List.forall_mem_cons.mp h
    obtain ⟨d, hd, rfl⟩ := exists_digitChar hc
    obtain ⟨m, hm⟩ := ih hrest (n := 10 * n + d) (by omega)
    refine ⟨m, ?_⟩
    have hnext : digitCodes n ++ [CodePoint.ofChar d.digitChar] = digitCodes (10 * n + d) := by
      unfold digitCodes
      rw [← Nat.toDigits_append_toDigits (by decide) hn hd, List.map_append,
        Nat.toDigits_of_lt_base hd]
      rfl
    rw [← hm, ← hnext, List.append_assoc, List.singleton_append]

/-- Digits without leading zeros are those of a number. -/
theorem isPlainDigits_iff {codes : List CodePoint} :
    isPlainDigits codes = true ↔ ∃ m, codes = digitCodes m := by
  constructor
  · intro h
    obtain ⟨hne, hdigits⟩ := isDigitCode_of_isPlainDigits h
    obtain ⟨c, rest, rfl⟩ := List.exists_cons_of_ne_nil hne
    obtain ⟨hc, hrest⟩ := List.forall_mem_cons.mp hdigits
    obtain ⟨d, hd, rfl⟩ := exists_digitChar hc
    have hfirst : digitCodes d = [CodePoint.ofChar d.digitChar] := by
      unfold digitCodes
      rw [Nat.toDigits_of_lt_base hd]
      rfl
    cases rest with
    | nil => exact ⟨d, hfirst.symm⟩
    | cons e more =>
      -- the first of several digits is not zero
      have hpos : 0 < d := by
        rcases Nat.eq_zero_or_pos d with rfl | hpos
        · simp only [isPlainDigits, Bool.and_eq_true, bne_iff_ne] at h
          exact absurd rfl h.1.2
        · exact hpos
      obtain ⟨m, hm⟩ := exists_toDigits_append hrest hpos
      exact ⟨m, by rw [← hm, hfirst, List.singleton_append]⟩
  · rintro ⟨m, rfl⟩
    rcases Nat.eq_zero_or_pos m with rfl | hm
    · rfl
    · obtain ⟨c, rest, hcons, hc⟩ := Numeral.toDigits_head hm
      have hall : ∀ d ∈ digitCodes m, isDigitCode d = true := fun d => isDigitCode_of_mem_digitCodes
      unfold digitCodes at hall ⊢
      rw [hcons, List.map_cons] at hall ⊢
      obtain ⟨hfirst, hrest⟩ := List.forall_mem_cons.mp hall
      have hzero : (CodePoint.ofChar c).val ≠ 48 := fun h => hc (Char.toNat_inj.mp h)
      cases hmap : rest.map CodePoint.ofChar with
      | nil => exact hfirst
      | cons e more =>
        rw [hmap] at hrest
        simp only [isPlainDigits, Bool.and_eq_true, bne_iff_ne]
        exact ⟨⟨hfirst, hzero⟩, List.all_eq_true.mpr hrest⟩

/-! ## The form of an integer -/

/-- A text has the form of an integer exactly if it is the text of one, or `-0`. -/
theorem isIntegerText_iff {t : Text} :
    isIntegerText t.codes = true ↔ t = minusZero ∨ ∃ n, t = Text.ofInt n := by
  have hext {t u : Text} (h : t.codes = u.codes) : t = u := by cases t; cases u; cases h; rfl
  constructor
  · intro h
    cases hcodes : t.codes with
    | nil => rw [hcodes] at h; cases h
    | cons c rest =>
      rw [hcodes, isIntegerText] at h
      split at h
      next hminus =>
        obtain ⟨m, rfl⟩ := isPlainDigits_iff.mp h
        have hc : c = CodePoint.ofChar '-' := Fin.ext hminus
        rcases Nat.eq_zero_or_pos m with rfl | hm
        · exact .inl (hext (by rw [hcodes, codes_minusZero, hc]))
        · refine .inr ⟨-m, hext ?_⟩
          rw [hcodes, codes_ofInt, if_pos (by omega), hc, Int.natAbs_neg, Int.natAbs_natCast]
      next =>
        obtain ⟨m, hm⟩ := isPlainDigits_iff.mp h
        refine .inr ⟨m, hext ?_⟩
        rw [hcodes, codes_ofInt, if_neg (by omega), hm, Int.natAbs_natCast]
  · rintro (rfl | ⟨n, rfl⟩)
    · decide
    · have hdigits : isPlainDigits (digitCodes n.natAbs) = true := isPlainDigits_iff.mpr ⟨_, rfl⟩
      rw [codes_ofInt]
      split
      next => exact hdigits
      next =>
        obtain ⟨hne, hall⟩ := isDigitCode_of_isPlainDigits hdigits
        obtain ⟨c, rest, hcons⟩ := List.exists_cons_of_ne_nil hne
        rw [hcons] at hall hdigits ⊢
        have hc : c.val ≠ 45 := by
          have := hall c (List.mem_cons_self ..)
          simp only [isDigitCode, Bool.and_eq_true, decide_eq_true_eq] at this
          omega
        rw [isIntegerText, if_neg hc]
        exact hdigits

/-! ## Reading an integer back -/

/-- The text of an integer reads as that integer, unless it has too many digits. -/
theorem readInt?_ofInt (n : Int) :
    Numeral.readInt? 10 (Text.ofInt n).codes
      = if Numeral.maxDigits < (Nat.toDigits 10 n.natAbs).length then none else some n := by
  rw [codes_ofInt]
  split
  next hneg =>
    have hdigits (c : Char) (hc : c ∈ Nat.toDigits 10 n.natAbs) : Numeral.isDigit 10 c = true :=
      Numeral.isDigit_of_mem_toDigits (by decide) (by decide) hc
    have hspace : ∀ c ∈ digitCodes n.natAbs, Numeral.isSpace (Numeral.plain c.val) = false :=
      fun c hc => not_isSpace_of_isDigitCode (isDigitCode_of_mem_digitCodes hc)
    have htrimmed : Numeral.trimmed (CodePoint.ofChar '-' :: digitCodes n.natAbs)
        = '-' :: Nat.toDigits 10 n.natAbs := by
      have hplain : (digitCodes n.natAbs).map (fun c => Numeral.plain c.val)
          = Nat.toDigits 10 n.natAbs := by
        rw [← Numeral.trimmed_eq hspace]
        exact Numeral.trimmed_of_isDigit (by decide) hdigits
      have hminus : Numeral.plain (CodePoint.ofChar '-').val = '-' := by decide
      rw [Numeral.trimmed_eq, List.map_cons, hplain, hminus]
      intro c hc
      rcases List.mem_cons.mp hc with rfl | hc
      · rw [hminus]
        decide
      · exact hspace c hc
    have hdenoted : Numeral.ofDigits 10 (Nat.toDigits 10 n.natAbs) = n.natAbs :=
      Numeral.ofDigits_toDigits (by decide) (by decide) _
    have hvalue : Binary64.signed true n.natAbs = n := by
      show -(n.natAbs : Int) = n
      omega
    unfold Numeral.readInt?
    simp only [htrimmed, Numeral.takeSign, Numeral.dropBase_of_isDigit hdigits,
      Numeral.digits?_of_isDigit (by decide) hdigits Nat.toDigits_ne_nil, true_and,
      hdenoted, hvalue]
  next hpos =>
    have hvalue : (n.natAbs : Int) = n := Int.natAbs_of_nonneg (Int.not_lt.mp hpos)
    have hread := Numeral.readInt?_toDigits n.natAbs
    rw [hvalue] at hread
    exact hread

theorem filter_isDigitCode_ofInt (n : Int) :
    ((Text.ofInt n).codes.filter isDigitCode).length = (Nat.toDigits 10 n.natAbs).length := by
  have hdigits : (digitCodes n.natAbs).filter isDigitCode = digitCodes n.natAbs :=
    List.filter_eq_self.mpr fun c => isDigitCode_of_mem_digitCodes
  have hlength : (digitCodes n.natAbs).length = (Nat.toDigits 10 n.natAbs).length :=
    List.length_map _
  have hminus : isDigitCode (CodePoint.ofChar '-') = false := by decide
  rw [codes_ofInt]
  split
  · rw [List.filter_cons_of_neg (by rw [hminus]; decide), hdigits, hlength]
  · rw [hdigits, hlength]

/-- An integer of 64 bits does not have too many digits. -/
theorem length_toDigits_of_fitsInt {n : Int} (h : fitsInt n = true) :
    ¬Numeral.maxDigits < (Nat.toDigits 10 n.natAbs).length := by
  have hrange := Value.fitsInt_iff.mp h
  have hlength : (Nat.toDigits 10 n.natAbs).length ≤ 19 :=
    (Nat.length_toDigits_le_iff (by decide) (by decide)).mpr (by omega)
  exact Nat.not_lt.mpr (Nat.le_trans hlength (by decide))

/-- The text of an integer that can be read is that of no other integer. -/
theorem eq_of_ofInt {m n : Int} (h : Text.ofInt m = Text.ofInt n)
    (hm : ¬Numeral.maxDigits < (Nat.toDigits 10 m.natAbs).length) : m = n := by
  have hread := readInt?_ofInt m
  rw [if_neg hm, h, readInt?_ofInt] at hread
  split at hread
  · cases hread
  · exact (Option.some.inj hread).symm

theorem minusZero_ne_ofInt (n : Int) : minusZero ≠ Text.ofInt n := by
  intro h
  have hread : Numeral.readInt? 10 minusZero.codes = some 0 := rfl
  rw [h, readInt?_ofInt] at hread
  split at hread
  · cases hread
  · obtain rfl := Option.some.inj hread
    exact absurd h (by decide)

/-! ## What a text is as a key -/

/-- The key that the text of an integer is. -/
theorem ofText_ofInt (n : Int) :
    ofText (Text.ofInt n)
      = if Numeral.maxDigits < (Nat.toDigits 10 n.natAbs).length then
          Outcome.fault (.tooManyDigits (Nat.toDigits 10 n.natAbs).length)
        else .ok (if fitsInt n = true then .int n else .text (Text.ofInt n)) := by
  unfold ofText
  rw [if_pos (isIntegerText_iff.mpr (.inr ⟨n, rfl⟩)), readInt?_ofInt, filter_isDigitCode_ofInt]
  by_cases hlong : Numeral.maxDigits < (Nat.toDigits 10 n.natAbs).length
  · simp only [if_pos hlong]
  · simp only [if_neg hlong]

theorem ofText_minusZero : ofText minusZero = .ok (.int 0) := rfl

theorem ofText_other {t : Text} (hzero : t ≠ minusZero) (h : ∀ n, t ≠ Text.ofInt n) :
    ofText t = .ok (.text t) :=
  if_neg fun hform => (isIntegerText_iff.mp hform).elim hzero fun ⟨n, hn⟩ => h n hn

/-- What a text is: `-0`, the text of an integer, or neither. -/
theorem ofText_cases (t : Text) :
    t = minusZero ∨ (∃ n, t = Text.ofInt n) ∨ t ≠ minusZero ∧ ∀ n, t ≠ Text.ofInt n := by
  by_cases hzero : t = minusZero
  · exact .inl hzero
  · by_cases hint : ∃ n, t = Text.ofInt n
    · exact .inr (.inl hint)
    · exact .inr (.inr ⟨hzero, fun n hn => hint ⟨n, hn⟩⟩)

/-- A text is the key of an integer if it is the text of that integer, and this has 64 bits;
and `-0` is the key zero. -/
theorem ofText_eq_int_iff {t : Text} {n : Int} :
    ofText t = .ok (.int n) ↔ fitsInt n = true ∧ t = Text.ofInt n ∨ n = 0 ∧ t = minusZero := by
  constructor
  · intro h
    rcases ofText_cases t with rfl | ⟨m, rfl⟩ | ⟨hzero, hint⟩
    · rw [ofText_minusZero] at h
      cases h
      exact .inr ⟨rfl, rfl⟩
    · rw [ofText_ofInt] at h
      split at h
      · cases h
      · split at h
        next hfits => cases h; exact .inl ⟨hfits, rfl⟩
        next => cases h
    · rw [ofText_other hzero hint] at h
      cases h
  · rintro (⟨hfits, rfl⟩ | ⟨rfl, rfl⟩)
    · rw [ofText_ofInt, if_neg (length_toDigits_of_fitsInt hfits), if_pos hfits]
    · exact ofText_minusZero

/-- A text is itself as a key if it is not `-0` and not the text of an integer that is a key or
cannot be read. -/
theorem ofText_eq_text_iff {t u : Text} :
    ofText t = .ok (.text u)
      ↔ u = t ∧ t ≠ minusZero ∧ ¬t.IsTooLong ∧ ∀ n, t = Text.ofInt n → fitsInt n = false := by
  constructor
  · intro h
    rcases ofText_cases t with rfl | ⟨m, rfl⟩ | ⟨hzero, hint⟩
    · rw [ofText_minusZero] at h
      cases h
    · rw [ofText_ofInt] at h
      split at h
      · cases h
      next hlong =>
        split at h
        next => cases h
        next hwide =>
          cases h
          refine ⟨rfl, (minusZero_ne_ofInt m).symm, ?_, fun n hn => ?_⟩
          · rintro ⟨n, hn, hdigits⟩
            rw [← eq_of_ofInt hn hlong] at hdigits
            exact hlong hdigits
          · rw [← eq_of_ofInt hn hlong]
            exact Bool.eq_false_iff.mpr hwide
    · rw [ofText_other hzero hint] at h
      cases h
      exact ⟨rfl, hzero, fun ⟨n, hn, _⟩ => hint n hn, fun n hn => (hint n hn).elim⟩
  · rintro ⟨rfl, hzero, hlong, hwide⟩
    by_cases hint : ∃ n, u = Text.ofInt n
    · obtain ⟨n, rfl⟩ := hint
      rw [ofText_ofInt, if_neg fun h => hlong ⟨n, rfl, h⟩, hwide n rfl]
      rfl
    · exact ofText_other hzero fun n hn => hint ⟨n, hn⟩

/-- A text is a key unless it has the form of an integer with too many digits. -/
theorem ofText_ok_iff {t : Text} : (∃ k, ofText t = .ok k) ↔ ¬t.IsTooLong := by
  rcases ofText_cases t with rfl | ⟨n, rfl⟩ | ⟨hzero, hint⟩
  · exact ⟨fun _ ⟨n, hn, _⟩ => minusZero_ne_ofInt n hn, fun _ => ⟨_, ofText_minusZero⟩⟩
  · rw [ofText_ofInt]
    split
    next hlong => exact ⟨fun ⟨_, h⟩ => (by cases h), fun h => (h ⟨n, rfl, hlong⟩).elim⟩
    next hshort =>
      refine ⟨fun _ ⟨m, hm, hlong⟩ => ?_, fun _ => ⟨_, rfl⟩⟩
      rw [← eq_of_ofInt hm hshort] at hlong
      exact hshort hlong
  · exact ⟨fun _ ⟨n, hn, _⟩ => hint n hn, fun _ => ⟨_, ofText_other hzero hint⟩⟩

/-- Two texts that are the same key are the same text, or `0` and `-0`. -/
theorem ofText_inj {t u : Text} {k : Key} (ht : ofText t = .ok k) (hu : ofText u = .ok k) :
    t = u ∨ t = Text.ofInt 0 ∧ u = minusZero ∨ t = minusZero ∧ u = Text.ofInt 0 := by
  cases k with
  | int n =>
    rcases ofText_eq_int_iff.mp ht with ⟨_, rfl⟩ | ⟨rfl, rfl⟩
    · rcases ofText_eq_int_iff.mp hu with ⟨_, rfl⟩ | ⟨rfl, rfl⟩
      · exact .inl rfl
      · exact .inr (.inl ⟨rfl, rfl⟩)
    · rcases ofText_eq_int_iff.mp hu with ⟨_, rfl⟩ | ⟨_, rfl⟩
      · exact .inr (.inr ⟨rfl, rfl⟩)
      · exact .inl rfl
  | text s => exact .inl ((ofText_eq_text_iff.mp ht).1.symm.trans (ofText_eq_text_iff.mp hu).1)

end Key

end StaticReflection
