import StaticReflection.Folding.Literal
import StaticReflection.Proofs.Value.Faults

/-!
# Literals that cannot be read

An integer literal is a fault if its text denotes no number, or one too large for a
double; a double-quoted string is one if an escape `\u{…}` in it names a number beyond
all code points. Both conditions are exact. `Literal.NamesNoCode` follows the reading of
a string, because what counts as an escape depends on the escapes before it.
-/

namespace StaticReflection

open Outcome

namespace Literal

/-- The number that the text of an integer literal denotes. -/
def integerOf? (text : String) : Option Int :=
  let (base, digits) := integerParts (LetterCase.lower (dropUnderscores text)).toList
  Numeral.readInt? base (digits.map CodePoint.ofChar)

/-- The text of an integer literal denotes no number, or one too large for a double. -/
def IsNoInteger (text : String) : Prop :=
  ∀ n, integerOf? text = some n → intMax < n ∧ Binary64.overflow ≤ n.natAbs

theorem integer_eq (text : String) : integer text = match integerOf? text with
    | none => Outcome.fault .malformedNumber
    | some n => if intMax < n then do return .float (← Value.floatOfInt n) else return .int n := by
  unfold integer integerOf?
  rcases integerParts (LetterCase.lower (dropUnderscores text)).toList with ⟨base, digits⟩
  rfl

theorem integer_escapes_iff {text : String} : (integer text).Escapes ↔ IsNoInteger text := by
  rw [integer_eq]
  unfold IsNoInteger
  cases integerOf? text with
  | none => exact ⟨fun _ _ h => (by cases h), fun _ => escapes_fault⟩
  | some n =>
    have hall : (∀ k, some n = some k → intMax < k ∧ Binary64.overflow ≤ k.natAbs)
        ↔ intMax < n ∧ Binary64.overflow ≤ n.natAbs :=
      ⟨fun h => h n rfl, fun h k hk => by cases hk; exact h⟩
    rw [hall]
    simp only
    split
    next h =>
      exact (escapes_bind_iff_left fun _ _ => not_escapes_ok).trans
        (Value.floatOfInt_escapes_iff.trans (and_iff_right h).symm)
    next h => exact ⟨fun h => (not_escapes_ok h).elim, fun hn => (h hn.1).elim⟩

theorem float_escapes_iff {text : String} : (float text).Escapes
    ↔ Numeral.readFloat? (Text.ofString (dropUnderscores text)).codes = none := by
  unfold float
  split
  next h => rw [h]; exact ⟨fun h => (not_escapes_ok h).elim, fun h => by cases h⟩
  next h => exact ⟨fun _ => h, fun _ => escapes_fault⟩

/-- The characters after a backslash begin with `u{…}` and name a number beyond all
code points. -/
def HugeEscape (cs : List Char) : Prop :=
  ∃ hex more, cs = 'u' :: '{' :: (hex ++ '}' :: more) ∧ hex ≠ []
    ∧ (∀ c ∈ hex, Numeral.isDigit 16 c = true) ∧ 0x110000 ≤ Numeral.ofDigits 16 hex

theorem namedCode_escapes_iff {n : Nat} : (namedCode n).Escapes ↔ 0x110000 ≤ n := by
  unfold namedCode
  split
  next h => exact ⟨fun h => (not_escapes_ok h).elim, fun _ => by omega⟩
  next h => exact ⟨fun _ => by omega, fun _ => escapes_fault⟩

/-- The only escapes that give a fault. -/
theorem escape?_escapes_iff {cs : List Char} :
    (∃ code used, escape? cs = some (code, used) ∧ code.Escapes) ↔ HugeEscape cs := by
  constructor
  · rintro ⟨code, used, h, hesc⟩
    unfold escape? at h
    split at h
    · cases h
    next c rest =>
      split at h
      next hu =>
        split at h
        next more =>
          obtain ⟨tail, htail⟩ := List.takeWhile_prefix (Numeral.isDigit 16) (l := more)
          simp only at h
          split at h
          next after hafter =>
            split at h
            · cases h
            next hne =>
              cases h
              -- what is left after the digits begins with the closing brace
              have htail' : tail = '}' :: after := by
                rw [← hafter]
                conv => rhs; arg 2; rw [← htail]
                rw [List.drop_left]
              refine ⟨more.takeWhile (Numeral.isDigit 16), after, ?_, ?_, ?_, ?_⟩
              · rw [hu, ← htail', htail]
              · exact fun hnil => hne (by rw [hnil]; rfl)
              · exact fun c hc => List.all_eq_true.mp List.all_takeWhile c hc
              · exact namedCode_escapes_iff.mp hesc
          · cases h
        · cases h
      next =>
        split at h
        · simp only at h
          split at h
          · cases h
          · cases h; exact (not_escapes_ok hesc).elim
        · split at h
          · cases h; exact (not_escapes_ok hesc).elim
          · obtain ⟨d, _, hd⟩ := Option.map_eq_some_iff.mp h
            cases hd
            exact (not_escapes_ok hesc).elim
  · rintro ⟨hex, more, rfl, hne, hdigits, hbound⟩
    -- the brace is no digit, so the digits that are taken are all there are
    have hbrace : ¬Numeral.isDigit 16 '}' = true := by decide
    have htake : (hex ++ '}' :: more).takeWhile (Numeral.isDigit 16) = hex := by
      rw [List.takeWhile_append_of_pos hdigits, List.takeWhile_cons_of_neg hbrace,
        List.append_nil]
    unfold escape?
    simp only [htake, List.drop_left, if_true]
    rw [if_neg (by simpa using hne)]
    exact ⟨_, _, rfl, namedCode_escapes_iff.mpr hbound⟩

/-- Among the escapes of a double-quoted text, its first `skip` characters left out, one
names a number beyond all code points. -/
inductive NamesNoCode : Nat → List Char → Prop
  | here {rest : List Char} (h : HugeEscape rest) : NamesNoCode 0 ('\\' :: rest)
  | after {rest : List Char} {code : CodePoint} {used : Nat}
      (he : escape? rest = some (.ok code, used)) (h : NamesNoCode used rest) :
      NamesNoCode 0 ('\\' :: rest)
  | bare {rest : List Char} (he : escape? rest = none) (h : NamesNoCode 0 rest) :
      NamesNoCode 0 ('\\' :: rest)
  | plain {c : Char} {rest : List Char} (hc : c ≠ '\\') (h : NamesNoCode 0 rest) :
      NamesNoCode 0 (c :: rest)
  | skipped {c : Char} {skip : Nat} {rest : List Char} (h : NamesNoCode skip rest) :
      NamesNoCode (skip + 1) (c :: rest)

theorem unescapeFrom_escapes {cs : List Char} {skip : Nat}
    (h : (unescapeFrom skip cs).Escapes) : NamesNoCode skip cs := by
  induction cs generalizing skip with
  | nil =>
    cases skip <;> exact (not_escapes_ok h).elim
  | cons c rest ih =>
    cases skip with
    | succ skip => exact .skipped (ih h)
    | zero =>
      unfold unescapeFrom at h
      split at h
      next hc =>
        subst hc
        split at h
        next code used he =>
          cases code with
          | ok first =>
            exact .after he (ih ((escapes_bind_iff_left fun _ _ => not_escapes_ok).mp h))
          | error f =>
            obtain ⟨g, hg, hf⟩ := h
            cases hg
            exact .here (escape?_escapes_iff.mp ⟨_, _, he, f, rfl, hf⟩)
        next he => exact .bare he (ih ((escapes_bind_iff_left fun _ _ => not_escapes_ok).mp h))
      next hc => exact .plain hc (ih ((escapes_bind_iff_left fun _ _ => not_escapes_ok).mp h))

theorem NamesNoCode.escapes {cs : List Char} {skip : Nat} (h : NamesNoCode skip cs) :
    (unescapeFrom skip cs).Escapes := by
  have before {o : Outcome (List CodePoint)} {d : CodePoint} (ho : o.Escapes) :
      Escapes (do return d :: (← o)) :=
    (escapes_bind_iff_left fun _ _ => not_escapes_ok).mpr ho
  induction h with
  | here h =>
    obtain ⟨code, used, he, f, hcode, hf⟩ := escape?_escapes_iff.mpr h
    rw [unescapeFrom, if_pos rfl, he, hcode]
    exact ⟨f, rfl, hf⟩
  | after he _ ih =>
    rw [unescapeFrom, if_pos rfl, he]
    exact before ih
  | bare he _ ih =>
    rw [unescapeFrom, if_pos rfl, he]
    exact before ih
  | plain hc _ ih =>
    rw [unescapeFrom, if_neg hc]
    exact before ih
  | skipped _ ih =>
    rw [unescapeFrom]
    exact ih

theorem unescapeDouble_escapes_iff {cs : List Char} :
    (unescapeDouble cs).Escapes ↔ NamesNoCode 0 cs :=
  (escapes_bind_iff_left fun _ _ => not_escapes_ok).trans
    ⟨unescapeFrom_escapes, NamesNoCode.escapes⟩

end Literal

end StaticReflection
