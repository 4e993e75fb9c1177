import StaticReflection.Proofs.Decimal.Readers
import StaticReflection.Value.Convert

/-!
# The texts that are numbers for arithmetic

A numeric string (`Text.IsNumeric`) is a decimal number with white space around it. Arithmetic takes
every numeric string for its number, but more texts besides: what it looks at are the characters
that a text reads as (`Text.ReadsAs`), with digits of other scripts for figures, with any blanks
around them and with single underscores between figures left out. And there are words that it takes
for doubles.

> `Value.toNumber_text`: a text is an integer if it reads as a number without fraction and exponent
> that has not too many digits, whatever its size; a double if it reads as another number or as one
> of the words; and refused otherwise. The numeric strings are those texts that read as a number and
> are made of ASCII characters without an underscore.
-/

namespace StaticReflection

open Numeral

/-! ## What a text reads as -/

/-- Space, tabulators, line feed, form feed and carriage return. -/
def Numeral.whiteSpace : List Char := [' ', '\t', '\n', '\r', '\x0b', '\x0c']

namespace Text

/-- A text is a decimal number with white space around it. -/
def IsNumeric (t : Text) (d : Decimal) : Prop :=
  ∃ before after, (∀ c ∈ before ++ after, c ∈ whiteSpace)
    ∧ t.codes = (before ++ d.chars ++ after).map CodePoint.ofChar

/-- A text reads as characters: digits of any script count as figures and any blanks as spaces
(`Numeral.plain`), and then there are only spaces around the characters, and single underscores
between figures. -/
def ReadsAs (t : Text) (cs : List Char) : Prop :=
  ∃ before ws after, (∀ c ∈ before ++ after, c ∈ whiteSpace)
    ∧ t.codes.map (fun c => plain c.val) = before ++ ws ++ after ∧ Loosened false cs ws

end Text

namespace Numeral

theorem isSpace_iff {c : Char} : isSpace c = true ↔ c ∈ whiteSpace := by
  constructor
  · intro h
    have hnat : c.toNat = 9 ∨ c.toNat = 10 ∨ c.toNat = 11 ∨ c.toNat = 12 ∨ c.toNat = 13
        ∨ c.toNat = 32 := by
      simp only [isSpace, Bool.or_eq_true, Bool.and_eq_true, decide_eq_true_eq, beq_iff_eq] at h
      rcases h with h | rfl
      · omega
      · decide
    rw [← Char.ofNat_toNat c]
    rcases hnat with h | h | h | h | h | h <;> (rw [h]; decide)
  · intro h
    simp only [whiteSpace, List.mem_cons, List.not_mem_nil, or_false] at h
    rcases h with rfl | rfl | rfl | rfl | rfl | rfl <;> decide

section

variable {codes : List CodePoint}

/-- What is trimmed are spaces. -/
theorem exists_trimmed (codes : List CodePoint) :
    ∃ before after, (∀ c ∈ before ++ after, c ∈ whiteSpace)
      ∧ codes.map (fun c => plain c.val) = before ++ trimmed codes ++ after := by
  let cs := codes.map fun c => plain c.val
  let start := cs.takeWhile isSpace
  let stop := (cs.dropWhile isSpace).reverse.takeWhile isSpace
  have hspace : ∀ c ∈ start ++ stop.reverse, c ∈ whiteSpace := by
    intro c hc
    refine isSpace_iff.mp ?_
    rcases List.mem_append.mp hc with hc | hc
    · exact List.all_eq_true.mp List.all_takeWhile c hc
    · exact List.all_eq_true.mp List.all_takeWhile c (List.mem_reverse.mp hc)
  have hstop : (cs.dropWhile isSpace) = trimmed codes ++ stop.reverse := by
    rw [← List.reverse_inj, List.reverse_append, List.reverse_reverse]
    show _ = stop ++ ((cs.dropWhile isSpace).reverse.dropWhile isSpace).reverse.reverse
    rw [List.reverse_reverse, List.takeWhile_append_dropWhile]
  refine ⟨start, stop.reverse, hspace, ?_⟩
  show cs = _
  rw [List.append_assoc, ← hstop, List.takeWhile_append_dropWhile]

/-- Characters without spaces are left when the spaces around them are trimmed. -/
theorem trimmed_of_append {before ws after : List Char}
    (hspace : ∀ c ∈ before ++ after, c ∈ whiteSpace) (hws : ∀ c ∈ ws, c ∉ whiteSpace)
    (h : codes.map (fun c => plain c.val) = before ++ ws ++ after) : trimmed codes = ws := by
  have hbefore : ∀ c ∈ before, isSpace c = true := fun c hc =>
    isSpace_iff.mpr (hspace c (List.mem_append_left _ hc))
  have hafter : ∀ c ∈ after.reverse, isSpace c = true := fun c hc =>
    isSpace_iff.mpr (hspace c (List.mem_append_right _ (List.mem_reverse.mp hc)))
  have hstay : ∀ c ∈ ws, isSpace c = false := fun c hc =>
    Bool.eq_false_iff.mpr (mt isSpace_iff.mp (hws c hc))
  unfold trimmed
  simp only
  rw [h, List.append_assoc, List.dropWhile_append_of_pos hbefore]
  cases ws with
  | nil =>
    have hnil : (after ++ []).dropWhile isSpace = [].dropWhile isSpace :=
      List.dropWhile_append_of_pos fun c hc => hafter c (List.mem_reverse.mpr hc)
    rw [List.append_nil] at hnil
    rw [List.nil_append, hnil]
    rfl
  | cons c ws =>
    rw [List.cons_append,
      List.dropWhile_cons_of_neg (mt isSpace_iff.mp (hws c (List.mem_cons_self ..))),
      ← List.cons_append, List.reverse_append, List.dropWhile_append_of_pos hafter,
      dropWhile_isSpace fun d hd => hstay d (List.mem_reverse.mp hd), List.reverse_reverse]

end

/-- Characters without spaces are read if they are left of the trimmed text. -/
theorem readsAs_iff {t : Text} {cs : List Char} (h : ∀ c ∈ cs, c ∉ whiteSpace) :
    t.ReadsAs cs ↔ Loosened false cs (trimmed t.codes) := by
  constructor
  · rintro ⟨before, ws, after, hspace, hcodes, hloose⟩
    have hws : ∀ c ∈ ws, c ∉ whiteSpace := by
      intro c hc
      rcases hloose.mem hc with hc | rfl
      · exact h c hc
      · decide
    rwa [trimmed_of_append hspace hws hcodes]
  · intro hloose
    obtain ⟨before, after, hspace, hcodes⟩ := exists_trimmed t.codes
    exact ⟨before, _, after, hspace, hcodes, hloose⟩

/-! ## The characters of numbers -/

/-- The characters of decimal numbers that are no figures. -/
def marks : List Char := ['+', '-', '.', 'e', 'E']

theorem Sign.mem_marks {s : Sign} {c : Char} (h : c ∈ s.chars) : c ∈ marks := by
  cases s with
  | absent => cases h
  | plus => rw [List.mem_singleton.mp h]; decide
  | minus => rw [List.mem_singleton.mp h]; decide

theorem Decimal.mem_chars {d : Decimal} {c : Char} (h : c ∈ d.chars) :
    c.isDigit = true ∨ c ∈ marks := by
  rcases List.mem_append.mp h with h | h
  · exact .inr (Sign.mem_marks h)
  · rcases List.mem_append.mp h with h | h
    · exact .inl (d.isDigit_whole c h)
    · rcases List.mem_append.mp h with h | h
      · cases hf : d.fraction with
        | none => rw [hf] at h; cases h
        | some ds =>
          rw [hf] at h
          rcases List.mem_cons.mp h with rfl | h
          · exact .inr (by decide)
          · exact .inl (d.isDigit_fraction ds hf c h)
      · cases he : d.exponent with
        | none => rw [he] at h; cases h
        | some e =>
          rw [he] at h
          rcases List.mem_cons.mp h with rfl | h
          · right; cases e.capital <;> decide
          · rcases List.mem_append.mp h with h | h
            · exact .inr (Sign.mem_marks h)
            · exact .inl (e.isDigit c h)

theorem ascii_of_isDigit {c : Char} (h : c.isDigit = true) :
    c ∉ whiteSpace ∧ c ≠ '_' ∧ c.toNat < 127 ∧ c ≠ '?' := by
  refine ⟨fun hspace => ?_, ?_, ?_, ?_⟩
  · exact absurd (isSpace_iff.mpr hspace)
      (Bool.eq_false_iff.mp (isSpace_of_isDigit (by decide) (isDigit_ten h)))
  · exact (not_mark_of_isDigit h).1
  · have := toNat_of_isDigit h
    omega
  · rintro rfl
    exact absurd h (by decide)

theorem ascii_of_mem_marks : ∀ c ∈ marks, c ∉ whiteSpace ∧ c ≠ '_' ∧ c.toNat < 127 ∧ c ≠ '?' :=
  forall_mem_of_all (by decide)

theorem Decimal.ascii {d : Decimal} {c : Char} (h : c ∈ d.chars) :
    c ∉ whiteSpace ∧ c ≠ '_' ∧ c.toNat < 127 ∧ c ≠ '?' :=
  (Decimal.mem_chars h).elim ascii_of_isDigit (ascii_of_mem_marks c)

/-- There are no spaces in words. -/
theorem NamesFloat.not_mem_whiteSpace {cs : List Char} {x : Float} (h : NamesFloat cs x) :
    ∀ c ∈ cs, c ∉ whiteSpace := by
  have hlower : ∀ c ∈ whiteSpace, c.toLower ∉ "infinity".toList ++ "nan".toList :=
    forall_mem_of_all (by decide)
  have hword {s : Sign} {word letters : List Char} (hletters : word.map Char.toLower = letters)
      (hsub : ∀ c ∈ letters, c ∈ "infinity".toList ++ "nan".toList) :
      ∀ c ∈ s.chars ++ word, c ∉ whiteSpace := by
    intro c hc hspace
    rcases List.mem_append.mp hc with hc | hc
    · exact (ascii_of_mem_marks c (Sign.mem_marks hc)).1 hspace
    · exact hlower c hspace (hsub _ (hletters ▸ List.mem_map_of_mem hc))
  cases h with
  | infinity s h =>
    exact h.elim (hword · (forall_mem_of_all (by decide)))
      (hword · (forall_mem_of_all (by decide)))
  | nan s h => exact hword h (forall_mem_of_all (by decide))

end Numeral

/-! ## Numeric strings -/

namespace Text

variable {t : Text} {d : Decimal}

/-- ASCII characters count as themselves, but for the last, which can stand in no number. -/
theorem plain_ascii : (∀ n < 127, (plain n).toNat = n) ∧ plain 127 = '?' := by decide

/-- The numeric strings are the texts that read as a number and are made of ASCII characters without
an underscore. -/
theorem isNumeric_iff :
    t.IsNumeric d ↔ t.ReadsAs d.chars ∧ ∀ c ∈ t.codes, c.val < 128 ∧ c.val ≠ '_'.toNat := by
  have hwhite : ∀ c ∈ whiteSpace, c ≠ '_' ∧ c.toNat < 127 ∧ c ≠ '?' :=
    forall_mem_of_all (by decide)
  constructor
  · rintro ⟨before, after, hspace, hcodes⟩
    have hplain : ∀ c ∈ before ++ d.chars ++ after, c ≠ '_' ∧ c.toNat < 127 := by
      intro c hc
      rw [List.mem_append, List.mem_append] at hc
      rcases hc with (hc | hc) | hc
      · have := hwhite c (hspace c (List.mem_append_left _ hc))
        exact ⟨this.1, this.2.1⟩
      · have := Decimal.ascii hc
        exact ⟨this.2.1, this.2.2.1⟩
      · have := hwhite c (hspace c (List.mem_append_right _ hc))
        exact ⟨this.1, this.2.1⟩
    refine ⟨⟨before, d.chars, after, hspace, ?_, .refl _ fun c hc => (Decimal.ascii hc).2.1⟩, ?_⟩
    · rw [hcodes, List.map_map]
      refine (List.map_congr_left fun c hc => ?_).trans (List.map_id _)
      exact Char.toNat_inj.mp (plain_ascii.1 c.toNat (hplain c hc).2)
    · intro c hc
      rw [hcodes] at hc
      obtain ⟨x, hx, rfl⟩ := List.mem_map.mp hc
      obtain ⟨hunder, hascii⟩ := hplain x hx
      exact ⟨Nat.lt_succ_of_lt hascii, fun h => hunder (Char.toNat_inj.mp h)⟩
  · rintro ⟨⟨before, ws, after, hspace, hcodes, hloose⟩, hascii⟩
    have hread : ∀ c ∈ before ++ ws ++ after, c ≠ '?' := by
      intro c hc
      rw [List.mem_append, List.mem_append] at hc
      rcases hc with (hc | hc) | hc
      · exact (hwhite c (hspace c (List.mem_append_left _ hc))).2.2
      · rcases hloose.mem hc with hc | rfl
        · exact (Decimal.ascii hc).2.2.2
        · decide
      · exact (hwhite c (hspace c (List.mem_append_right _ hc))).2.2
    have hplain : ∀ c ∈ t.codes, CodePoint.ofChar (plain c.val) = c := by
      intro c hc
      have hmem : plain c.val ∈ before ++ ws ++ after := hcodes ▸ List.mem_map_of_mem hc
      have hne : c.val ≠ 127 := fun h => hread _ hmem (by rw [h, plain_ascii.2])
      have hlt : c.val < 127 := by
        have := (hascii c hc).1
        omega
      exact Fin.ext (plain_ascii.1 c.val hlt)
    have hws : ∀ c ∈ ws, c ≠ '_' := by
      rintro c hc rfl
      have hmem : '_' ∈ t.codes.map fun c => plain c.val := by
        rw [hcodes]
        exact List.mem_append_left _ (List.mem_append_right _ hc)
      obtain ⟨x, hx, hunder⟩ := List.mem_map.mp hmem
      refine (hascii x hx).2 ?_
      rw [← hplain x hx, hunder]
      rfl
    refine ⟨before, after, hspace, ?_⟩
    rw [← hloose.eq_of_plain hws, ← hcodes, List.map_map]
    exact ((List.map_congr_left hplain).trans (List.map_id _)).symm

end Text

/-! ## Numbers for arithmetic -/

namespace Value

section

variable {t : Text}

/-- The integer that a text denotes. -/
theorem readInt?_text_iff {n : Int} :
    readInt? 10 t.codes = some n ↔ ∃ d : Decimal, t.ReadsAs d.chars ∧ d.IsShort ∧ n = d.toInt := by
  rw [readInt?_eq_some_iff]
  simp only [readsAs_iff fun c hc => (Decimal.ascii hc).1]

/-- The double that a text denotes. -/
theorem readFloat?_text_iff {x : Float} :
    readFloat? t.codes = some x
      ↔ (∃ d : Decimal, t.ReadsAs d.chars ∧ x = d.toFloat)
        ∨ ∃ cs, t.ReadsAs cs ∧ NamesFloat cs x := by
  rw [readFloat?_eq_some_iff]
  constructor
  · rintro ⟨cs, hloose, ⟨d, rfl, rfl⟩ | h⟩
    · exact .inl ⟨d, (readsAs_iff fun c hc => (Decimal.ascii hc).1).mpr hloose, rfl⟩
    · exact .inr ⟨cs, (readsAs_iff h.not_mem_whiteSpace).mpr hloose, h⟩
  · rintro (⟨d, hread, rfl⟩ | ⟨cs, hread, h⟩)
    · exact ⟨d.chars, (readsAs_iff fun c hc => (Decimal.ascii hc).1).mp hread, .inl ⟨d, rfl, rfl⟩⟩
    · exact ⟨cs, (readsAs_iff h.not_mem_whiteSpace).mp hread, .inr h⟩

/-- What a text that is a number or a word reads as is settled. -/
theorem readsAs_unique {cs ds : List Char} (hcs : ∀ c ∈ cs, c ∉ whiteSpace)
    (hds : ∀ c ∈ ds, c ∉ whiteSpace) (h : t.ReadsAs cs) (h' : t.ReadsAs ds) : cs = ds :=
  ((readsAs_iff hcs).mp h).unique ((readsAs_iff hds).mp h')

theorem readInt?_eq_none_iff :
    readInt? 10 t.codes = none ↔ ∀ d : Decimal, t.ReadsAs d.chars → ¬d.IsShort := by
  rw [Option.eq_none_iff_forall_ne_some]
  constructor
  · intro h d hread hshort
    exact h d.toInt (readInt?_text_iff.mpr ⟨d, hread, hshort, rfl⟩)
  · rintro h n hn
    obtain ⟨d, hread, hshort, -⟩ := readInt?_text_iff.mp hn
    exact h d hread hshort

/-- The integer is tried first, so a double is found only where there is none. -/
theorem toNumber_eq_float_iff {x : Float} :
    toNumber (.text t) = .ok (.float x)
      ↔ readInt? 10 t.codes = none ∧ readFloat? t.codes = some x := by
  rw [toNumber]
  split
  next n hn =>
    exact ⟨fun h => (by cases h), fun h => (by rw [hn] at h; cases h.1)⟩
  next hn =>
    split
    next y hy =>
      rw [hn, hy]
      exact ⟨fun h => (by cases h; exact ⟨rfl, rfl⟩), fun h => (by cases h.2; rfl)⟩
    next hy =>
      rw [hy]
      exact ⟨fun h => (by cases h), fun h => (by cases h.2)⟩

theorem toNumber_eq_int_iff {n : Int} :
    toNumber (.text t) = .ok (.int n) ↔ readInt? 10 t.codes = some n := by
  rw [toNumber]
  split
  next m hm =>
    rw [hm]
    exact ⟨fun h => (by cases h; rfl), fun h => (by cases h; rfl)⟩
  next hn =>
    rw [hn]
    refine ⟨fun h => ?_, fun h => (by cases h)⟩
    split at h <;> cases h

theorem toNumber_eq_unfoldable_iff :
    toNumber (.text t) = Outcome.unfoldable (.nonNumeric t)
      ↔ readInt? 10 t.codes = none ∧ readFloat? t.codes = none := by
  rw [toNumber]
  split
  next n hn => exact ⟨fun h => (by cases h), fun h => (by rw [hn] at h; cases h.1)⟩
  next hn =>
    split
    next y hy => exact ⟨fun h => (by cases h), fun h => (by rw [hy] at h; cases h.2)⟩
    next hy => exact ⟨fun _ => ⟨hn, hy⟩, fun _ => rfl⟩

end

/-- Arithmetic and numeric strings. A text is an integer for arithmetic exactly if it reads as a
number without fraction and exponent that has not too many digits; it is a double exactly if it
reads as another number, or as one of the words for infinities and for what is no number; and it is
refused exactly if it reads as neither. Of the texts that read as a number, the numeric strings are
those that are made of ASCII characters without an underscore. -/
theorem toNumber_text (t : Text) :
    (∀ n, toNumber (.text t) = .ok (.int n)
      ↔ ∃ d : Decimal, t.ReadsAs d.chars ∧ d.IsShort ∧ n = d.toInt)
    ∧ (∀ x, toNumber (.text t) = .ok (.float x)
      ↔ (∃ d : Decimal, t.ReadsAs d.chars ∧ ¬d.IsShort ∧ x = d.toFloat)
        ∨ ∃ cs, t.ReadsAs cs ∧ NamesFloat cs x)
    ∧ (toNumber (.text t) = Outcome.unfoldable (.nonNumeric t)
      ↔ ∀ cs, t.ReadsAs cs → (∀ d : Decimal, cs ≠ d.chars) ∧ ∀ x, ¬NamesFloat cs x)
    ∧ ∀ d : Decimal, t.IsNumeric d
      ↔ t.ReadsAs d.chars ∧ ∀ c ∈ t.codes, c.val < 128 ∧ c.val ≠ '_'.toNat := by
  have hnumber {d : Decimal} {cs : List Char} {x : Float} (hread : t.ReadsAs d.chars)
      (hcs : t.ReadsAs cs) : ¬NamesFloat cs x := fun h => by
    have heq := readsAs_unique (fun c hc => (Decimal.ascii hc).1) h.not_mem_whiteSpace hread hcs
    exact d.not_namesFloat (heq ▸ h)
  refine ⟨fun n => toNumber_eq_int_iff.trans readInt?_text_iff, fun x => ?_, ?_,
    fun d => Text.isNumeric_iff⟩
  · rw [toNumber_eq_float_iff, readInt?_eq_none_iff, readFloat?_text_iff]
    constructor
    · rintro ⟨hlong, ⟨d, hread, rfl⟩ | h⟩
      · exact .inl ⟨d, hread, hlong d hread, rfl⟩
      · exact .inr h
    · rintro (⟨d, hread, hlong, rfl⟩ | ⟨cs, hcs, h⟩)
      · refine ⟨fun e he hshort => hlong ?_, .inl ⟨d, hread, rfl⟩⟩
        have heq := readsAs_unique (fun c hc => (Decimal.ascii hc).1)
          (fun c hc => (Decimal.ascii hc).1) he hread
        exact (Decimal.isShort_congr heq hshort).1
      · exact ⟨fun d hread => (hnumber hread hcs h).elim, .inr ⟨cs, hcs, h⟩⟩
  · rw [toNumber_eq_unfoldable_iff, readInt?_eq_none_iff, Option.eq_none_iff_forall_ne_some]
    simp only [Ne, readFloat?_text_iff]
    constructor
    · rintro ⟨-, hnone⟩ cs hcs
      refine ⟨fun d hd => hnone d.toFloat (.inl ⟨d, hd ▸ hcs, rfl⟩), fun x hx => ?_⟩
      exact hnone x (.inr ⟨cs, hcs, hx⟩)
    · intro h
      refine ⟨fun d hread => ((h d.chars hread).1 d rfl).elim, ?_⟩
      rintro x (⟨d, hread, -⟩ | ⟨cs, hcs, hx⟩)
      · exact (h d.chars hread).1 d rfl
      · exact (h cs hcs).2 x hx

/-- A thousand with an underscore in it. -/
def thousand : Text := Text.ofString "1_000"

/-- The text is an integer for arithmetic and no numeric string. -/
theorem toNumber_thousand :
    toNumber (.text thousand) = .ok (.int 1000) ∧ ¬∃ d : Decimal, thousand.IsNumeric d := by
  obtain ⟨hint, -, -, hnumeric⟩ := toNumber_text thousand
  have hdigits : ∀ c ∈ "1000".toList, c.isDigit = true := forall_mem_of_all (by decide)
  have hloose : Loosened false "1000".toList "1_000".toList :=
    .next (by decide) (.apart (by decide) (.refl _ (forall_mem_of_all (by decide))))
  have hread : thousand.ReadsAs "1000".toList :=
    ⟨[], "1_000".toList, [], fun _ h => (by cases h), by decide, hloose⟩
  refine ⟨(hint 1000).mpr ⟨⟨.absent, "1000".toList, none, none, hdigits, fun _ h => (by cases h),
    by decide⟩, hread, ⟨⟨rfl, rfl⟩, show 4 ≤ 4300 by decide⟩, rfl⟩, ?_⟩
  rintro ⟨d, h⟩
  have hascii := ((hnumeric d).mp h).2 (CodePoint.ofChar '_') (by decide)
  exact hascii.2 rfl

end Value

end StaticReflection
