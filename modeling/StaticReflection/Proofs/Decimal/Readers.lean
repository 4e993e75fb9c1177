import StaticReflection.Proofs.Decimal.Digits

/-!
# Decimal numbers and how they are read

A decimal number (`Numeral.Decimal`) has digits, a fraction or both, and perhaps a sign and an
exponent. Two readers look for one: `Numeral.readInt?` for a sign and digits, `Numeral.readFloat?`
for any. They look past blanks around the number and single underscores between its digits
(`Numeral.Loosened`), and both come to the same characters that way, so what each of them finds is
said of these characters:

> `Numeral.readInt?_eq_some_iff`, `Numeral.readFloat?_eq_some_iff`: an integer is read from a number
> without fraction and exponent that has not too many digits, and a double from any number, or from
> one of the words for infinities and for what is no number.
-/

namespace StaticReflection

namespace Numeral

/-! ## Decimal numbers -/

/-- The sign before a number, if there is one. -/
inductive Sign where
  | absent
  | plus
  | minus

namespace Sign

def chars : Sign → List Char
  | absent => []
  | plus => ['+']
  | minus => ['-']

def negative : Sign → Bool
  | minus => true
  | _ => false

end Sign

/-- An exponent: its letter, perhaps a sign, and digits. -/
structure Exponent where
  capital : Bool
  sign : Sign
  digits : List Char
  isDigit : ∀ c ∈ digits, c.isDigit = true
  ne_nil : digits ≠ []

namespace Exponent

def chars (e : Exponent) : List Char :=
  (if e.capital then 'E' else 'e') :: (e.sign.chars ++ e.digits)

def value (e : Exponent) : Int := Binary64.signed e.sign.negative (ofDigits 10 e.digits)

end Exponent

/-- A decimal number as it is written. There are digits before the point or after it; those after it
may be missing although the point is there. -/
structure Decimal where
  sign : Sign
  whole : List Char
  fraction : Option (List Char)
  exponent : Option Exponent
  isDigit_whole : ∀ c ∈ whole, c.isDigit = true
  isDigit_fraction : ∀ ds ∈ fraction, ∀ c ∈ ds, c.isDigit = true
  hasDigit : whole ++ fraction.getD [] ≠ []

/-- The characters of a fraction: the point first. -/
def fractionChars : Option (List Char) → List Char
  | none => []
  | some ds => '.' :: ds

def exponentChars : Option Exponent → List Char
  | none => []
  | some e => e.chars

def exponentValue : Option Exponent → Int
  | none => 0
  | some e => e.value

namespace Decimal

/-- The characters after the sign. -/
def body (d : Decimal) : List Char :=
  d.whole ++ (fractionChars d.fraction ++ exponentChars d.exponent)

def chars (d : Decimal) : List Char := d.sign.chars ++ d.body

/-- Whether the number is written without fraction and exponent. -/
def IsInteger (d : Decimal) : Prop := d.fraction = none ∧ d.exponent = none

/-- The integer that the sign and the digits before the point denote. -/
def toInt (d : Decimal) : Int := Binary64.signed d.sign.negative (ofDigits 10 d.whole)

/-- The double nearest to the number. -/
def toFloat (d : Decimal) : Float :=
  scaled d.sign.negative (d.whole ++ d.fraction.getD [])
    (exponentValue d.exponent - (d.fraction.getD []).length)

end Decimal

/-! ## Signs -/

theorem exists_sign (cs : List Char) :
    ∃ s : Sign, cs = s.chars ++ (takeSign cs).2 ∧ (takeSign cs).1 = s.negative := by
  unfold takeSign
  split
  · exact ⟨.minus, rfl, rfl⟩
  · exact ⟨.plus, rfl, rfl⟩
  · exact ⟨.absent, rfl, rfl⟩

theorem takeSign_append (s : Sign) {cs : List Char} (h : ∀ c ∈ cs.head?, c ≠ '-' ∧ c ≠ '+') :
    takeSign (s.chars ++ cs) = (s.negative, cs) := by
  cases s with
  | plus => rfl
  | minus => rfl
  | absent =>
    show takeSign cs = (false, cs)
    unfold takeSign
    split
    next => exact absurd rfl (h '-' rfl).1
    next => exact absurd rfl (h '+' rfl).2
    next => rfl

/-! ## Digits -/

/-- The digits of the base ten are the figures. -/
theorem isDigit_ten_eq (c : Char) : isDigit 10 c = c.isDigit := by
  refine Bool.eq_iff_iff.mpr ⟨fun h => ?_, isDigit_ten⟩
  have hrange := range_of_isDigit (by decide) h
  unfold isDigit digitValue at h
  simp only [decide_eq_true_eq] at h
  simp only [Char.isDigit, Bool.and_eq_true, decide_eq_true_eq]
  show 48 ≤ c.toNat ∧ c.toNat ≤ 57
  split at h
  next hfigure => exact hfigure
  next =>
    split at h
    · omega
    · split at h <;> omega

theorem takeDigits_append {ds rest : List Char} (hds : ∀ c ∈ ds, c.isDigit = true)
    (hrest : ∀ c ∈ rest.head?, c.isDigit = false) : takeDigits (ds ++ rest) = (ds, rest) := by
  have hall : ∀ c ∈ ds, isDigit 10 c = true := fun c hc => isDigit_ten (hds c hc)
  have hstop : rest.takeWhile (isDigit 10) = [] ∧ rest.dropWhile (isDigit 10) = rest := by
    cases rest with
    | nil => exact ⟨rfl, rfl⟩
    | cons c more =>
      have hc : ¬isDigit 10 c = true := fun h => by
        rw [isDigit_ten_eq, hrest c rfl] at h
        cases h
      exact ⟨List.takeWhile_cons_of_neg hc, List.dropWhile_cons_of_neg hc⟩
  unfold takeDigits
  rw [List.takeWhile_append_of_pos hall, List.dropWhile_append_of_pos hall, hstop.1, hstop.2,
    List.append_nil]

/-- Digits are taken as long as there are some. -/
theorem exists_takeDigits (cs : List Char) :
    ∃ ds rest, takeDigits cs = (ds, rest) ∧ cs = ds ++ rest ∧ ∀ c ∈ ds, c.isDigit = true :=
  ⟨_, _, rfl, List.takeWhile_append_dropWhile.symm,
    fun c hc => (isDigit_ten_eq c).symm.trans (List.all_eq_true.mp List.all_takeWhile c hc)⟩

theorem not_mark_of_isDigit {c : Char} (h : c.isDigit = true) : c ≠ '_' ∧ c ≠ '-' ∧ c ≠ '+' := by
  refine ⟨?_, ?_, ?_⟩ <;> (rintro rfl; exact absurd h (by decide))

/-! ## Fractions -/

/-- The digits after a point, if there is one, and the rest. -/
def takeFraction (cs : List Char) : List Char × List Char :=
  match cs with
  | '.' :: more => takeDigits more
  | _ => ([], cs)

theorem takeFraction_append {fraction : Option (List Char)} {rest : List Char}
    (hds : ∀ ds ∈ fraction, ∀ c ∈ ds, c.isDigit = true)
    (hrest : ∀ c ∈ rest.head?, c.isDigit = false ∧ c ≠ '.') :
    takeFraction (fractionChars fraction ++ rest) = (fraction.getD [], rest) := by
  cases fraction with
  | some ds => exact takeDigits_append (hds ds rfl) fun c hc => (hrest c hc).1
  | none =>
    show takeFraction rest = ([], rest)
    unfold takeFraction
    split
    next => exact absurd rfl (hrest '.' rfl).2
    next => rfl

theorem exists_fraction (cs : List Char) :
    ∃ (fraction : Option (List Char)) (rest : List Char),
      takeFraction cs = (fraction.getD [], rest) ∧ cs = fractionChars fraction ++ rest
        ∧ ∀ ds ∈ fraction, ∀ c ∈ ds, c.isDigit = true := by
  unfold takeFraction
  split
  next more =>
    obtain ⟨ds, rest, htake, rfl, hdigits⟩ := exists_takeDigits more
    refine ⟨some ds, rest, htake, rfl, fun _ hds => ?_⟩
    cases hds
    exact hdigits
  next => exact ⟨none, cs, rfl, rfl, fun _ hds => by cases hds⟩

/-- A decimal is read part by part. -/
theorem readDecimal?_eq {negative : Bool} {cs whole rest fraction after : List Char}
    (hwhole : takeDigits cs = (whole, rest)) (hfraction : takeFraction rest = (fraction, after)) :
    readDecimal? negative cs
      = if whole ++ fraction = [] then none
        else match takeExponent? after with
          | some (x, []) => some (scaled negative (whole ++ fraction) (x - fraction.length))
          | _ => none := by
  have hempty : (whole.isEmpty && fraction.isEmpty) = decide (whole ++ fraction = []) := by
    rw [Bool.eq_iff_iff, Bool.and_eq_true, List.isEmpty_iff, List.isEmpty_iff, decide_eq_true_eq,
      List.append_eq_nil_iff]
  have hparts : readDecimal? negative cs
      = let parts := ((takeDigits cs).1, takeFraction (takeDigits cs).2)
        if (parts.1.isEmpty && parts.2.1.isEmpty) = true then none
        else match takeExponent? parts.2.2 with
          | some (x, []) => some (scaled negative (parts.1 ++ parts.2.1) (x - parts.2.1.length))
          | _ => none := rfl
  rw [hparts]
  simp only [hwhole, hfraction, hempty, decide_eq_true_eq]

/-! ## Exponents -/

theorem takeExponent?_chars (e : Option Exponent) :
    takeExponent? (exponentChars e) = some (exponentValue e, []) := by
  cases e with
  | none => rfl
  | some e =>
    have hletter (b : Bool) : (if b then 'E' else 'e') = 'e' ∨ (if b then 'E' else 'e') = 'E' := by
      cases b
      · exact .inl rfl
      · exact .inr rfl
    have hdigits : takeDigits e.digits = (e.digits, []) := by
      have happend : takeDigits (e.digits ++ []) = (e.digits, []) :=
        takeDigits_append e.isDigit fun c hc => by cases hc
      rwa [List.append_nil] at happend
    have hne : e.digits.isEmpty = false := List.isEmpty_eq_false_iff.mpr e.ne_nil
    show takeExponent? e.chars = some (e.value, [])
    unfold Exponent.chars takeExponent?
    simp only [if_pos (hletter e.capital), takeSign_append e.sign fun c hc =>
      (not_mark_of_isDigit (e.isDigit c (List.mem_of_mem_head? hc))).2, hdigits, hne]
    rfl

theorem exists_exponent {cs : List Char} {x : Int} (h : takeExponent? cs = some (x, [])) :
    ∃ e : Option Exponent, cs = exponentChars e ∧ x = exponentValue e := by
  unfold takeExponent? at h
  split at h
  next c rest =>
    split at h
    next hletter =>
      obtain ⟨s, hrest, hneg⟩ := exists_sign rest
      obtain ⟨ds, after, htake, hsplit, hdigits⟩ := exists_takeDigits (takeSign rest).2
      simp only [htake] at h
      split at h
      next => cases h
      next hne =>
        obtain ⟨hvalue, rfl⟩ := Prod.mk.inj (Option.some.inj h)
        rw [List.append_nil] at hsplit
        have hcapital : c = if decide (c = 'E') then 'E' else 'e' := by
          rcases hletter with rfl | rfl <;> rfl
        have hsome : ds ≠ [] := fun hnil => hne (by rw [hnil]; rfl)
        refine ⟨some ⟨decide (c = 'E'), s, ds, hdigits, hsome⟩, ?_, ?_⟩
        · show c :: rest = (if decide (c = 'E') then 'E' else 'e') :: (s.chars ++ ds)
          rw [← hcapital, ← hsplit, ← hrest]
        · rw [← hvalue, hneg]
          rfl
    next => cases h
  next =>
    cases h
    exact ⟨none, rfl, rfl⟩

/-! ## Whole numbers -/

namespace Decimal

variable (d : Decimal)

theorem exponent_head {c : Char} (hc : c ∈ (exponentChars d.exponent).head?) :
    c.isDigit = false ∧ c ≠ '.' := by
  cases he : d.exponent with
  | none => rw [he] at hc; cases hc
  | some e =>
    rw [he] at hc
    obtain rfl := Option.some.inj hc
    cases e.capital <;> decide

theorem rest_head {c : Char}
    (hc : c ∈ (fractionChars d.fraction ++ exponentChars d.exponent).head?) :
    c.isDigit = false := by
  cases hf : d.fraction with
  | none =>
    rw [hf] at hc
    exact (d.exponent_head hc).1
  | some ds =>
    rw [hf] at hc
    obtain rfl := Option.some.inj hc
    decide

/-- After the sign a figure or the point comes first. -/
theorem body_head : ∃ c rest, d.body = c :: rest ∧ (c.isDigit = true ∨ c = '.') := by
  unfold body
  cases hw : d.whole with
  | cons c rest =>
    exact ⟨c, _, rfl, .inl (d.isDigit_whole c (hw ▸ List.mem_cons_self ..))⟩
  | nil =>
    cases hf : d.fraction with
    | some ds => exact ⟨'.', _, rfl, .inr rfl⟩
    | none =>
      have hdigit := d.hasDigit
      rw [hw, hf] at hdigit
      exact absurd rfl hdigit

theorem takeSign_chars : takeSign d.chars = (d.sign.negative, d.body) := by
  refine takeSign_append d.sign fun c hc => ?_
  obtain ⟨x, rest, hbody, hx⟩ := d.body_head
  rw [hbody] at hc
  obtain rfl := Option.some.inj hc
  rcases hx with hx | rfl
  · constructor <;> (rintro rfl; exact absurd hx (by decide))
  · decide

/-- A number is read as the double nearest to it. -/
theorem readDecimal?_body : readDecimal? d.sign.negative d.body = some d.toFloat := by
  have hwhole : takeDigits d.body
      = (d.whole, fractionChars d.fraction ++ exponentChars d.exponent) :=
    takeDigits_append d.isDigit_whole fun c hc => d.rest_head hc
  have hfraction : takeFraction (fractionChars d.fraction ++ exponentChars d.exponent)
      = (d.fraction.getD [], exponentChars d.exponent) :=
    takeFraction_append d.isDigit_fraction fun c hc => d.exponent_head hc
  rw [readDecimal?_eq hwhole hfraction, if_neg d.hasDigit, takeExponent?_chars]
  rfl

/-- A number is an integer if there are only figures after the sign. -/
theorem isInteger_iff : d.IsInteger ↔ ∀ c ∈ d.body, c.isDigit = true := by
  constructor
  · rintro ⟨hfraction, hexponent⟩ c hc
    rw [body, hfraction, hexponent] at hc
    exact d.isDigit_whole c ((List.mem_append.mp hc).resolve_right fun h => by cases h)
  · intro h
    have hrest : ∀ c ∈ (fractionChars d.fraction ++ exponentChars d.exponent).head?, False :=
      fun c hc => by
        have hdigit := h c (List.mem_append_right _ (List.mem_of_mem_head? hc))
        rw [d.rest_head hc] at hdigit
        cases hdigit
    cases hf : d.fraction with
    | some ds => exact (hrest '.' (by rw [hf]; rfl)).elim
    | none =>
      cases he : d.exponent with
      | some e => exact (hrest _ (by rw [hf, he]; rfl)).elim
      | none => exact ⟨hf, he⟩

theorem body_of_isInteger (h : d.IsInteger) : d.body = d.whole := by
  rw [body, h.1, h.2]
  exact List.append_nil _

end Decimal

/-- What is read as a double is a number. -/
theorem exists_decimal {s : Sign} {cs : List Char} {x : Float}
    (h : readDecimal? s.negative cs = some x) :
    ∃ d : Decimal, s.chars ++ cs = d.chars ∧ x = d.toFloat := by
  obtain ⟨whole, rest, hwhole, rfl, hdigits⟩ := exists_takeDigits cs
  obtain ⟨fraction, after, hfraction, rfl, hmore⟩ := exists_fraction rest
  rw [readDecimal?_eq hwhole hfraction] at h
  split at h
  next => cases h
  next hne =>
    split at h
    next y hexponent =>
      obtain ⟨e, rfl, rfl⟩ := exists_exponent hexponent
      exact ⟨⟨s, whole, fraction, e, hdigits, hmore, hne⟩, rfl, (Option.some.inj h).symm⟩
    next => cases h

/-! ## Looking past underscores -/

/-- Characters are others with single underscores put between figures that stand side by side. The
flag says whether these follow a figure, with which an underscore in front may then stand. -/
inductive Loosened : Bool → List Char → List Char → Prop
  | nil {follows : Bool} : Loosened follows [] []
  | next {follows : Bool} {c : Char} {cs ws : List Char} (hc : c ≠ '_')
    (h : Loosened c.isDigit cs ws) : Loosened follows (c :: cs) (c :: ws)
  | apart {d : Char} {cs ws : List Char} (hd : d.isDigit = true) (h : Loosened true cs ws) :
    Loosened true (d :: cs) ('_' :: d :: ws)

theorem dropUnderscores?_eq_some_iff {follows : Bool} {ws cs : List Char} :
    dropUnderscores? follows ws = some cs ↔ Loosened follows cs ws := by
  fun_induction dropUnderscores? follows ws generalizing cs with
  | case1 follows =>
    refine ⟨fun h => ?_, fun h => ?_⟩
    · cases h
      exact .nil
    · cases h
      rfl
  | case2 follows d rest hd ih =>
    obtain ⟨rfl, hd⟩ := Bool.and_eq_true_iff.mp hd
    rw [isDigit_ten_eq] at hd
    rw [Option.map_eq_some_iff]
    constructor
    · rintro ⟨ds, hds, rfl⟩
      exact .apart hd (ih.mp hds)
    · intro h
      cases h with
      | next hc => exact absurd rfl hc
      | apart _ h => exact ⟨_, ih.mpr h, rfl⟩
  | case3 follows d rest hd =>
    refine ⟨fun h => (by cases h), fun h => ?_⟩
    cases h with
    | next hc => exact absurd rfl hc
    | apart hdigit =>
      rw [isDigit_ten_eq, hdigit] at hd
      exact absurd rfl hd
  | case4 follows rest hrest =>
    refine ⟨fun h => (by cases h), fun h => ?_⟩
    cases h with
    | next hc => exact absurd rfl hc
    | apart => exact (hrest _ _ rfl rfl).elim
  | case5 follows c rest hrest hc ih =>
    rw [isDigit_ten_eq] at ih
    rw [Option.map_eq_some_iff]
    constructor
    · rintro ⟨ds, hds, rfl⟩
      rw [isDigit_ten_eq] at hds
      exact .next hc (ih.mp hds)
    · intro h
      cases h with
      | next _ h => exact ⟨_, (isDigit_ten_eq c).symm ▸ ih.mpr h, rfl⟩
      | apart => exact absurd rfl hc

namespace Loosened

variable {cs ds ws : List Char}

/-- What the characters are is settled by what they are put between. -/
theorem unique {follows : Bool} (h : Loosened follows cs ws) (h' : Loosened follows ds ws) :
    cs = ds :=
  Option.some.inj ((dropUnderscores?_eq_some_iff.mpr h).symm.trans
    (dropUnderscores?_eq_some_iff.mpr h'))

/-- Without underscores nothing is put between. -/
theorem refl (follows : Bool) (h : ∀ c ∈ cs, c ≠ '_') : Loosened follows cs cs := by
  induction cs generalizing follows with
  | nil => exact .nil
  | cons c cs ih =>
    obtain ⟨hc, hcs⟩ := List.forall_mem_cons.mp h
    exact .next hc (ih _ hcs)

/-- The first character is the same, unless a digit stands before it. -/
theorem head_eq (h : Loosened false cs ws) : ws.head? = cs.head? := by
  cases h with
  | nil => rfl
  | next => rfl

theorem eq_of_plain {follows : Bool} (h : Loosened follows cs ws) (hws : ∀ c ∈ ws, c ≠ '_') :
    ws = cs :=
  unique (refl follows hws) h

/-- Each character is one of the others, or an underscore. -/
theorem mem {follows : Bool} (h : Loosened follows cs ws) {c : Char} (hc : c ∈ ws) :
    c ∈ cs ∨ c = '_' := by
  induction h with
  | nil => cases hc
  | next _ _ ih =>
    rcases List.mem_cons.mp hc with rfl | hc
    · exact .inl (List.mem_cons_self ..)
    · exact (ih hc).imp_left (List.mem_cons_of_mem _)
  | apart _ _ ih =>
    rcases List.mem_cons.mp hc with rfl | hc
    · exact .inr rfl
    · rcases List.mem_cons.mp hc with rfl | hc
      · exact .inl (List.mem_cons_self ..)
      · exact (ih hc).imp_left (List.mem_cons_of_mem _)

theorem eq_nil {follows : Bool} (h : Loosened follows cs []) : cs = [] :=
  Option.some.inj (dropUnderscores?_eq_some_iff.mpr h).symm

/-- A digit before matters only to an underscore in front. -/
theorem of_head {follows : Bool} {c : Char} (h : Loosened follows cs (c :: ws)) (hc : c ≠ '_')
    (follows' : Bool) : Loosened follows' cs (c :: ws) := by
  cases h with
  | next _ h => exact .next hc h
  | apart => exact absurd rfl hc

/-- An underscore after a digit stands before another one. -/
theorem underscore_iff :
    Loosened true cs ('_' :: ws) ↔ Loosened false cs ws ∧ ∃ d ∈ cs.head?, d.isDigit = true := by
  constructor
  · intro h
    cases h with
    | next hc => exact absurd rfl hc
    | @apart d _ _ hd h =>
      have hplain : d ≠ '_' := by
        rintro rfl
        exact absurd hd (by decide)
      exact ⟨.next hplain (hd.symm ▸ h), d, rfl, hd⟩
  · rintro ⟨h, d, hhead, hd⟩
    cases h with
    | nil => cases hhead
    | next hc h =>
      obtain rfl := Option.some.inj hhead
      exact .apart hd (hd ▸ h)

/-- A sign has no underscores around it. -/
theorem sign_iff (s : Sign) :
    Loosened false (s.chars ++ cs) ws ↔ ∃ rest, ws = s.chars ++ rest ∧ Loosened false cs rest := by
  have hsign {x : Char} (hx : x ≠ '_') (hdigit : x.isDigit = false) :
      Loosened false (x :: cs) ws ↔ ∃ rest, ws = x :: rest ∧ Loosened false cs rest := by
    constructor
    · intro h
      cases h with
      | next _ h => exact ⟨_, rfl, hdigit ▸ h⟩
    · rintro ⟨rest, rfl, h⟩
      exact .next hx (hdigit.symm ▸ h)
  cases s with
  | absent => exact ⟨fun h => ⟨ws, rfl, h⟩, fun ⟨_, hrest, h⟩ => hrest ▸ h⟩
  | plus => exact hsign (by decide) (by decide)
  | minus => exact hsign (by decide) (by decide)

end Loosened

/-- Characters are digits with single underscores put between some. -/
structure SpellsDigits (ds ws : List Char) : Prop where
  loosened : Loosened false ds ws
  ne_nil : ds ≠ []
  isDigit : ∀ c ∈ ds, c.isDigit = true

/-- After a digit the rest spells digits, with an underscore in front or without one. -/
theorem spellsDigits_cons_iff {c : Char} (hc : isDigit 10 c = true) (rest : List Char)
    {ds more : List Char}
    (hmore : ∀ {ds}, ds ≠ [] → (∀ c ∈ ds, c.isDigit = true) →
      (Loosened true ds more ↔ Loosened false ds rest))
    (hne : ∀ {ds}, Loosened true ds more → ds ≠ []) :
    SpellsDigits ds (c :: more) ↔ ∃ tail, SpellsDigits tail rest ∧ c :: tail = ds := by
  have hdigit : c.isDigit = true := (isDigit_ten_eq c).symm.trans hc
  constructor
  · rintro ⟨h, -, hall⟩
    cases h with
    | next _ h =>
      rw [hdigit] at h
      have hall := (List.forall_mem_cons.mp hall).2
      exact ⟨_, ⟨(hmore (hne h) hall).mp h, hne h, hall⟩, rfl⟩
  · rintro ⟨tail, ⟨h, hne, hall⟩, rfl⟩
    have hplain : c ≠ '_' := by
      rintro rfl
      exact absurd hdigit (by decide)
    exact ⟨.next hplain (hdigit.symm ▸ (hmore hne hall).mpr h), List.cons_ne_nil _ _,
      List.forall_mem_cons.mpr ⟨hdigit, hall⟩⟩

theorem not_spellsDigits {c : Char} (hc : ¬isDigit 10 c = true) {ds rest : List Char} :
    ¬SpellsDigits ds (c :: rest) := by
  rintro ⟨h, -, hall⟩
  cases h with
  | next _ _ => exact hc (isDigit_ten (hall c (List.mem_cons_self ..)))

/-- The digits that are read are those which are spelled. -/
theorem digits?_eq_some_iff {ws ds : List Char} :
    digits? 10 ws = some ds ↔ SpellsDigits ds ws := by
  fun_induction digits? 10 ws generalizing ds with
  | case1 =>
    refine iff_of_false nofun fun ⟨h, hne, _⟩ => ?_
    cases h
    exact hne rfl
  | case2 c hc =>
    constructor
    · intro h
      cases h
      have hdigit : ∀ d ∈ [c], d.isDigit = true :=
        List.forall_mem_singleton.mpr ((isDigit_ten_eq c).symm.trans hc)
      have hloose := Loosened.refl false fun d hd => (not_mark_of_isDigit (hdigit d hd)).1
      exact ⟨hloose, List.cons_ne_nil _ _, hdigit⟩
    · rintro ⟨h, -⟩
      cases h with
      | next _ h => rw [h.eq_nil]
  | case3 c hc => exact iff_of_false nofun (not_spellsDigits hc)
  | case4 c rest hc ih =>
    rw [Option.map_eq_some_iff, spellsDigits_cons_iff hc rest]
    · simp only [ih]
    · intro ds hne hall
      obtain ⟨d, more, rfl⟩ := List.exists_cons_of_ne_nil hne
      rw [Loosened.underscore_iff]
      exact and_iff_left ⟨d, rfl, hall d (List.mem_cons_self ..)⟩
    · rintro _ h rfl
      obtain ⟨-, d, hd, -⟩ := Loosened.underscore_iff.mp h
      cases hd
  | case5 c rest hc => exact iff_of_false nofun (not_spellsDigits hc)
  | case6 c rest hne hrest hc ih =>
    obtain ⟨d, more, rfl⟩ := List.exists_cons_of_ne_nil hne
    have hd : d ≠ '_' := by
      rintro rfl
      exact hrest more rfl
    rw [Option.map_eq_some_iff, spellsDigits_cons_iff hc (d :: more)]
    · simp only [ih]
    · exact fun _ _ => ⟨fun h => h.of_head hd _, fun h => h.of_head hd _⟩
    · rintro _ h rfl
      cases h
  | case7 c rest hne hrest hc => exact iff_of_false nofun (not_spellsDigits hc)

/-! ## The readers -/

/-- Characters that are read as a double although they are no number: the words for infinities and
for what is no number, in either case and with a sign or without. -/
inductive NamesFloat : List Char → Float → Prop
  | infinity (s : Sign) {word : List Char}
    (h : word.map Char.toLower = "inf".toList ∨ word.map Char.toLower = "infinity".toList) :
    NamesFloat (s.chars ++ word) (Binary64.infinity s.negative)
  | nan (s : Sign) {word : List Char} (h : word.map Char.toLower = "nan".toList) :
    NamesFloat (s.chars ++ word) Binary64.nan

namespace Decimal

/-- Whether the number is written as an integer that has not too many digits. -/
def IsShort (d : Decimal) : Prop := d.IsInteger ∧ d.whole.length ≤ maxDigits

/-- Two integers are written alike only if they are the same, and no other number is. -/
theorem isShort_congr {d e : Decimal} (h : d.chars = e.chars) (hd : d.IsShort) :
    e.IsShort ∧ d.toInt = e.toInt := by
  have hparts : (d.sign.negative, d.body) = (e.sign.negative, e.body) := by
    rw [← d.takeSign_chars, h, e.takeSign_chars]
  obtain ⟨hnegative, hbody⟩ := Prod.mk.inj hparts
  have he : e.IsInteger := e.isInteger_iff.mpr (hbody ▸ d.isInteger_iff.mp hd.1)
  have hwhole : d.whole = e.whole := by
    rw [← d.body_of_isInteger hd.1, hbody, e.body_of_isInteger he]
  refine ⟨⟨he, hwhole ▸ hd.2⟩, ?_⟩
  rw [toInt, hnegative, hwhole]
  rfl

end Decimal

/-- An integer is read from a number without fraction and exponent that has not too many digits. -/
theorem readInt?_eq_some_iff {codes : List CodePoint} {n : Int} :
    readInt? 10 codes = some n
      ↔ ∃ d : Decimal, Loosened false d.chars (trimmed codes) ∧ d.IsShort ∧ n = d.toInt := by
  have hbase (cs : List Char) : dropBase 10 cs = cs := by
    unfold dropBase
    split
    next hletter => cases hletter
    next => rfl
  unfold readInt?
  simp only [hbase, true_and]
  constructor
  · intro h
    obtain ⟨s, hs, hnegative⟩ := exists_sign (trimmed codes)
    split at h
    next => cases h
    next ds hds =>
      obtain ⟨hloose, hne, hall⟩ := digits?_eq_some_iff.mp hds
      split at h
      next => cases h
      next hlength =>
        have hdigit : ds ++ (none : Option (List Char)).getD [] ≠ [] := by
          rwa [Option.getD_none, List.append_nil]
        refine ⟨⟨s, ds, none, none, hall, fun _ h => (by cases h), hdigit⟩, ?_,
          ⟨⟨rfl, rfl⟩, Nat.not_lt.mp hlength⟩, ?_⟩
        · rw [hs]
          refine (Loosened.sign_iff s).mpr ⟨_, rfl, ?_⟩
          rw [Decimal.body_of_isInteger _ ⟨rfl, rfl⟩]
          exact hloose
        · rw [← Option.some.inj h, hnegative]
          rfl
  · rintro ⟨d, hloose, ⟨hint, hlength⟩, rfl⟩
    obtain ⟨ws, hws, hrest⟩ := (Loosened.sign_iff d.sign).mp hloose
    rw [d.body_of_isInteger hint] at hrest
    have hne : d.whole ≠ [] := by
      have := d.hasDigit
      rwa [hint.1, Option.getD_none, List.append_nil] at this
    have hds : digits? 10 ws = some d.whole :=
      digits?_eq_some_iff.mpr ⟨hrest, hne, d.isDigit_whole⟩
    have hsign : takeSign (trimmed codes) = (d.sign.negative, ws) := by
      rw [hws]
      refine takeSign_append d.sign fun c hc => ?_
      rw [hrest.head_eq] at hc
      exact (not_mark_of_isDigit (d.isDigit_whole c (List.mem_of_mem_head? hc))).2
    simp only [hsign, hds, if_neg (Nat.not_lt.mpr hlength)]
    rfl

/-- A word begins with a letter, so a sign is taken from it only if it has one. -/
theorem takeSign_word (s : Sign) {word more : List Char} {letter : Char}
    (h : word.map Char.toLower = letter :: more) (hletter : letter = 'i' ∨ letter = 'n') :
    takeSign (s.chars ++ word) = (s.negative, word) := by
  obtain ⟨c, rest, rfl, rfl, -⟩ := List.map_eq_cons_iff.mp h
  refine takeSign_append s fun y hy => ?_
  obtain rfl := Option.some.inj hy
  constructor <;> (rintro rfl; exact absurd hletter (by decide))

/-- No number is such a word. -/
theorem Decimal.not_namesFloat (d : Decimal) {x : Float} : ¬NamesFloat d.chars x := by
  obtain ⟨c, rest, hbody, hc⟩ := d.body_head
  have hword {s : Sign} {word more : List Char} {letter : Char} (hchars : s.chars ++ word = d.chars)
      (h : word.map Char.toLower = letter :: more) (hletter : letter = 'i' ∨ letter = 'n') :
      False := by
    have hsign := takeSign_word s h hletter
    rw [hchars, d.takeSign_chars, hbody] at hsign
    rw [← (Prod.mk.inj hsign).2, List.map_cons] at h
    obtain rfl := (List.cons.inj h).1
    rcases hc with hc | rfl
    · rw [toLower_of_isDigit hc] at hletter
      rcases hletter with rfl | rfl <;> exact absurd hc (by decide)
    · exact absurd hletter (by decide)
  intro h
  generalize hcs : d.chars = cs at h
  cases h with
  | infinity s h => exact h.elim (hword hcs.symm · (.inl rfl)) (hword hcs.symm · (.inl rfl))
  | nan s h => exact hword hcs.symm h (.inr rfl)

/-- A double is read from any number, and from a word for one. -/
theorem readFloat?_eq_some_iff {codes : List CodePoint} {x : Float} :
    readFloat? codes = some x
      ↔ ∃ cs, Loosened false cs (trimmed codes)
        ∧ ((∃ d : Decimal, cs = d.chars ∧ x = d.toFloat) ∨ NamesFloat cs x) := by
  have hlist {cs : List Char} {s : String} : String.ofList cs = s ↔ cs = s.toList :=
    ⟨fun h => by rw [← h, String.toList_ofList], fun h => by rw [h, String.ofList_toList]⟩
  unfold readFloat?
  simp only [hlist]
  constructor
  · intro h
    split at h
    next => cases h
    next cs hcs =>
      refine ⟨cs, dropUnderscores?_eq_some_iff.mp hcs, ?_⟩
      obtain ⟨s, hs, hnegative⟩ := exists_sign cs
      rw [hnegative] at h
      rw [hs]
      split at h
      next hword => cases h; exact .inr (.infinity s hword)
      next =>
        split at h
        next hword => cases h; exact .inr (.nan s hword)
        next => exact .inl (exists_decimal h)
  · rintro ⟨cs, hloose, h⟩
    rw [dropUnderscores?_eq_some_iff.mpr hloose]
    simp only
    rcases h with ⟨d, rfl, rfl⟩ | h
    · have hinfinity : ¬(d.body.map Char.toLower = "inf".toList
          ∨ d.body.map Char.toLower = "infinity".toList) := fun h =>
        d.not_namesFloat (.infinity d.sign h)
      have hnan : ¬d.body.map Char.toLower = "nan".toList := fun h =>
        d.not_namesFloat (.nan d.sign h)
      rw [d.takeSign_chars]
      simp only [if_neg hinfinity, if_neg hnan]
      exact d.readDecimal?_body
    · cases h with
      | infinity s hword =>
        have hsign := hword.elim (takeSign_word s · (.inl rfl)) (takeSign_word s · (.inl rfl))
        rw [hsign]
        simp only [if_pos hword]
      | nan s hword =>
        have hinfinity : ¬("nan".toList = "inf".toList ∨ "nan".toList = "infinity".toList) := by
          decide
        rw [takeSign_word s hword (.inr rfl)]
        simp only [hword, if_neg hinfinity, if_true]

end Numeral

end StaticReflection
