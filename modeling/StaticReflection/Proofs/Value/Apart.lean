import Mathlib.Data.List.Forall2
import StaticReflection.Proofs.Value.Equality
import StaticReflection.Proofs.Value.Spelling
import StaticReflection.Proofs.Value.TextKey

/-!
# Literals of alike values

Values that are equal may have different literals: `1` and `true` inside arrays, and maps with their
entries in another order. This is so whenever they are not the same value. Where the literals of
two alike values begin, a text cannot go on with both, unless the values are the same
(`ToldApart`): integers and truth values begin differently, and a key ends at the blank before its
arrow, a part of an array at its comma or bracket.

> `Value.Alike.toldApart`: literals tell alike values apart.
-/

namespace StaticReflection

/-- Two things are written such that no text begins with both, unless they are the same. -/
def ToldApart {α : Type} (write : α → Text) (x y : α) : Prop :=
  ∀ r s, (write x).codes ++ r = (write y).codes ++ s → x = y ∧ r = s

theorem toldApart_self {α : Type} (write : α → Text) (x : α) : ToldApart write x x :=
  fun _ _ h => ⟨rfl, List.append_cancel_left h⟩

theorem ToldApart.symm {α : Type} {write : α → Text} {x y : α} (h : ToldApart write x y) :
    ToldApart write y x := by
  intro r s heq
  obtain ⟨hxy, hend⟩ := h s r heq.symm
  exact ⟨hxy.symm, hend.symm⟩

/-- Texts that begin with different code points are told apart. -/
theorem toldApart_of_head {α : Type} {write : α → Text} {x y : α} {c d : CodePoint}
    {cs ds : List CodePoint} (hx : (write x).codes = c :: cs) (hy : (write y).codes = d :: ds)
    (h : c ≠ d) : ToldApart write x y := by
  intro r s heq
  rw [hx, hy] at heq
  exact absurd (List.cons.inj heq).1 h

/-! ## Digits and quotes -/

namespace Text

theorem codes_append (s t : Text) : (s ++ t).codes = s.codes ++ t.codes := rfl

theorem minus_not_mem_digitCodes (m : Nat) : CodePoint.ofChar '-' ∉ digitCodes m := by
  intro h
  have hdigit := Key.isDigitCode_of_mem_digitCodes h
  exact absurd hdigit (by decide)

theorem digitCodes_injective : Function.Injective digitCodes := by
  intro m n h
  have hchars : Nat.toDigits 10 m = Nat.toDigits 10 n :=
    List.map_injective_iff.mpr (fun c d hcd => Option.some.inj <| by
      rw [← CodePoint.toChar?_ofChar c, hcd, CodePoint.toChar?_ofChar]) h
  have hdenoted (k : Nat) : Numeral.ofDigits 10 (Nat.toDigits 10 k) = k :=
    Numeral.ofDigits_toDigits (by decide) (by decide) k
  rw [← hdenoted m, hchars, hdenoted]

/-- The digits of an integer, or a minus sign, begin its text. -/
theorem ofInt_head (n : Int) :
    ∃ c cs, (ofInt n).codes = c :: cs ∧ (c = CodePoint.ofChar '-' ∨ Key.isDigitCode c = true) := by
  obtain ⟨c, cs, hcons⟩ : ∃ c cs, digitCodes n.natAbs = c :: cs :=
    List.exists_cons_of_ne_nil fun hnil => Nat.toDigits_ne_nil (List.map_eq_nil_iff.mp hnil)
  rw [codes_ofInt]
  by_cases hn : n < 0
  · rw [if_pos hn]
    exact ⟨_, _, rfl, .inl rfl⟩
  · rw [if_neg hn]
    refine ⟨c, cs, hcons, .inr (Key.isDigitCode_of_mem_digitCodes (m := n.natAbs) ?_)⟩
    rw [hcons]
    exact List.mem_cons_self ..

theorem ofInt_injective : Function.Injective ofInt := by
  intro m n h
  have hcodes := congrArg codes h
  rw [codes_ofInt, codes_ofInt] at hcodes
  have hminus (k : Nat) (cs : List CodePoint) : CodePoint.ofChar '-' :: cs ≠ digitCodes k := by
    intro heq
    exact minus_not_mem_digitCodes k (heq ▸ List.mem_cons_self ..)
  by_cases hm : m < 0
  · by_cases hn : n < 0
    · rw [if_pos hm, if_pos hn] at hcodes
      have habs := digitCodes_injective (List.cons.inj hcodes).2
      omega
    · rw [if_pos hm, if_neg hn] at hcodes
      exact absurd hcodes (hminus _ _)
  · by_cases hn : n < 0
    · rw [if_neg hm, if_pos hn] at hcodes
      exact absurd hcodes.symm (hminus _ _)
    · rw [if_neg hm, if_neg hn] at hcodes
      have habs := digitCodes_injective hcodes
      omega

/-- The text of an integer has no code point that is neither a minus sign nor a digit. -/
theorem not_mem_ofInt {c : CodePoint} (hminus : c ≠ CodePoint.ofChar '-')
    (hdigit : Key.isDigitCode c = false) (n : Int) : c ∉ (ofInt n).codes := by
  have hdigits : c ∉ digitCodes n.natAbs := fun h => by
    rw [Key.isDigitCode_of_mem_digitCodes h] at hdigit
    cases hdigit
  rw [codes_ofInt]
  split
  · exact fun h => (List.mem_cons.mp h).elim hminus hdigits
  · exact hdigits

/-- An escaped code point is told apart from every other one. -/
theorem eq_of_escapeQuoted {c d : CodePoint} {r s : List CodePoint}
    (h : escapeQuoted c ++ r = escapeQuoted d ++ s) : c = d ∧ r = s := by
  have hbackslash {e : CodePoint} (he : ¬(e.val = 0x5c ∨ e.val = 0x27)) : (0x5c : CodePoint) ≠ e := by
    rintro rfl
    exact he (.inl rfl)
  unfold escapeQuoted at h
  by_cases hc : c.val = 0x5c ∨ c.val = 0x27
  · by_cases hd : d.val = 0x5c ∨ d.val = 0x27
    · rw [if_pos hc, if_pos hd] at h
      exact List.cons.inj (List.cons.inj h).2
    · rw [if_pos hc, if_neg hd] at h
      exact absurd (List.cons.inj h).1 (hbackslash hd)
  · by_cases hd : d.val = 0x5c ∨ d.val = 0x27
    · rw [if_neg hc, if_pos hd] at h
      exact absurd (List.cons.inj h).1.symm (hbackslash hc)
    · rw [if_neg hc, if_neg hd] at h
      exact List.cons.inj h

/-- An escaped code point is told apart from the closing quote. -/
theorem escapeQuoted_ne_quote (c : CodePoint) (r s : List CodePoint) :
    escapeQuoted c ++ r ≠ 0x27 :: s := by
  unfold escapeQuoted
  by_cases hc : c.val = 0x5c ∨ c.val = 0x27
  · rw [if_pos hc]
    intro h
    exact absurd (List.cons.inj h).1 (by decide)
  · rw [if_neg hc]
    intro h
    obtain rfl : c = 0x27 := (List.cons.inj h).1
    exact hc (.inr rfl)

/-- Quoted texts end where their quotes close. -/
theorem toldApart_singleQuoted (t u : Text) : ToldApart singleQuoted t u := by
  intro r s h
  have hbody : ∀ {cs ds : List CodePoint}, cs.flatMap escapeQuoted ++ 0x27 :: r
      = ds.flatMap escapeQuoted ++ 0x27 :: s → cs = ds ∧ r = s := by
    intro cs
    induction cs with
    | nil =>
      intro ds h
      cases ds with
      | nil => exact ⟨rfl, (List.cons.inj h).2⟩
      | cons d ds =>
        rw [List.flatMap_cons, List.append_assoc] at h
        exact (escapeQuoted_ne_quote _ _ _ h.symm).elim
    | cons c cs ih =>
      intro ds h
      rw [List.flatMap_cons, List.append_assoc] at h
      cases ds with
      | nil => exact (escapeQuoted_ne_quote _ _ _ h).elim
      | cons d ds =>
        rw [List.flatMap_cons, List.append_assoc] at h
        obtain ⟨rfl, hrest⟩ := eq_of_escapeQuoted h
        obtain ⟨rfl, hend⟩ := ih hrest
        exact ⟨rfl, hend⟩
  unfold singleQuoted at h
  simp only [List.cons_append, List.append_assoc] at h
  obtain ⟨hcodes, hend⟩ := hbody (List.cons.inj h).2
  exact ⟨congrArg Text.mk hcodes, hend⟩

end Text

/-! ## Keys and parts of arrays -/

/-- Lists that end at the first occurrence of an element. -/
theorem eq_of_append_cons {α : Type} {x : α} {as bs r s : List α} (ha : x ∉ as) (hb : x ∉ bs)
    (h : as ++ x :: r = bs ++ x :: s) : as = bs ∧ r = s := by
  induction as generalizing bs with
  | nil =>
    cases bs with
    | nil => exact ⟨rfl, (List.cons.inj h).2⟩
    | cons b bs => exact (hb ((List.cons.inj h).1 ▸ List.mem_cons_self ..)).elim
  | cons a as ih =>
    cases bs with
    | nil => exact (ha ((List.cons.inj h).1 ▸ List.mem_cons_self ..)).elim
    | cons b bs =>
      obtain ⟨rfl, hrest⟩ := List.cons.inj h
      obtain ⟨rfl, hend⟩ := ih (fun hx => ha (List.mem_cons_of_mem _ hx))
        (fun hx => hb (List.mem_cons_of_mem _ hx)) hrest
      exact ⟨rfl, hend⟩

/-- A key ends at the blank before its arrow. -/
theorem Key.eq_of_literal {k l : Key} {r s : List CodePoint}
    (h : k.literal.codes ++ CodePoint.ofChar ' ' :: r = l.literal.codes ++ CodePoint.ofChar ' ' :: s) :
    k = l ∧ r = s := by
  have hblank (n : Int) : CodePoint.ofChar ' ' ∉ (Text.ofInt n).codes :=
    Text.not_mem_ofInt (by decide) (by decide) n
  have hquote {n : Int} {t : Text} {r s : List CodePoint} :
      (Text.ofInt n).codes ++ r ≠ t.singleQuoted.codes ++ s := by
    obtain ⟨c, cs, hcons, hc⟩ := Text.ofInt_head n
    rw [hcons]
    intro h
    obtain rfl : c = 0x27 := (List.cons.inj h).1
    exact absurd hc (by decide)
  cases k with
  | int m =>
    cases l with
    | int n =>
      obtain ⟨hkeys, hrest⟩ := eq_of_append_cons (hblank m) (hblank n) h
      obtain rfl := Text.ofInt_injective (congrArg Text.mk hkeys)
      exact ⟨rfl, hrest⟩
    | text t => exact (hquote h).elim
  | text t =>
    cases l with
    | int n => exact (hquote h.symm).elim
    | text u =>
      obtain ⟨rfl, hrest⟩ := Text.toldApart_singleQuoted t u _ _ h
      exact ⟨rfl, (List.cons.inj hrest).2⟩

/-- Entries are told apart by their keys, and by their values if they have the same key. -/
theorem Value.toldApart_entryLiteral {e d : Key × Value}
    (h : e.1 = d.1 → ToldApart Value.literal e.2 d.2) : ToldApart Value.entryLiteral e d := by
  obtain ⟨k, v⟩ := e
  obtain ⟨l, w⟩ := d
  intro r s heq
  simp only [Value.entryLiteral, Text.codes_append, List.append_assoc] at heq
  obtain ⟨rfl, harrow⟩ := Key.eq_of_literal heq
  obtain ⟨rfl, hend⟩ := h rfl _ _ (List.append_cancel_left harrow)
  exact ⟨rfl, hend⟩

/-- Parts that are told apart one by one, in brackets and with commas between them. -/
theorem toldApart_brackets {α : Type} {write : α → Text} {xs ys : List α}
    (h : List.Forall₂ (ToldApart write) xs ys) :
    ToldApart (fun zs : List α =>
      Text.ofString "[" ++ Text.join (Text.ofString ", ") (zs.map write) ++ Text.ofString "]")
      xs ys := by
  intro r s heq
  simp only [Text.codes_append, List.append_assoc] at heq
  replace heq := List.append_cancel_left heq
  induction h with
  | nil => exact ⟨rfl, List.append_cancel_left heq⟩
  | cons hxy hrest ih =>
    cases hrest with
    | nil =>
      obtain ⟨rfl, hend⟩ := hxy _ _ heq
      exact ⟨rfl, List.append_cancel_left hend⟩
    | cons hxy' hrest =>
      simp only [List.map_cons, Text.join, Text.codes_append, List.append_assoc] at heq ih
      obtain ⟨rfl, hcomma⟩ := hxy _ _ heq
      obtain ⟨htail, hend⟩ := ih (List.append_cancel_left hcomma)
      exact ⟨congrArg _ htail, hend⟩

/-! ## Values -/

namespace Value

variable {a b : Value}

/-- Truth values begin with a letter, and integers do not. -/
theorem toldApart_bool_int (x : Bool) (n : Int) : ToldApart literal (.bool x) (.int n) := by
  obtain ⟨d, ds, hcons, hd⟩ := Text.ofInt_head n
  cases x with
  | true =>
    refine toldApart_of_head (c := CodePoint.ofChar 't') rfl hcons ?_
    rintro rfl
    exact absurd hd (by decide)
  | false =>
    refine toldApart_of_head (c := CodePoint.ofChar 'f') rfl hcons ?_
    rintro rfl
    exact absurd hd (by decide)

theorem toldApart_of_integer? {m : Int} (ha : a.integer? = some m) (hb : b.integer? = some m) :
    ToldApart literal a b := by
  have heq : a.integer? = b.integer? := ha.trans hb.symm
  cases a with
  | bool x =>
    cases b with
    | bool y =>
      obtain rfl : x = y := by
        cases x <;> cases y <;> first | rfl | cases heq
      exact toldApart_self literal _
    | int n => exact toldApart_bool_int x n
    | _ => cases hb
  | int m =>
    cases b with
    | bool x => exact (toldApart_bool_int x m).symm
    | int n =>
      obtain rfl : m = n := Option.some.inj heq
      exact toldApart_self literal _
    | _ => cases hb
  | _ => cases ha

/-- Literals tell alike values apart. -/
theorem Alike.toldApart (h : Alike a b) (ha : a.Exact) (hb : b.Exact) : ToldApart literal a b := by
  induction h with
  | null => exact toldApart_self literal _
  | number hm hn => exact toldApart_of_integer? hm hn
  | text t => exact toldApart_self literal _
  | @list xs ys hlength _ ih =>
    cases ha with
    | list hxs =>
      cases hb with
      | list hys =>
        have hparts : List.Forall₂ (ToldApart literal) xs ys := by
          refine List.forall₂_iff_get.mpr ⟨hlength, fun i hi hj => ?_⟩
          exact ih i _ _ (List.getElem?_eq_getElem hi) (List.getElem?_eq_getElem hj)
            (hxs _ (List.getElem_mem hi)) (hys _ (List.getElem_mem hj))
        intro r s heq
        rw [literal, literal, literalItems_eq, literalItems_eq] at heq
        obtain ⟨rfl, hend⟩ := toldApart_brackets hparts r s heq
        exact ⟨rfl, hend⟩
  | @map xs ys hkeys _ ih =>
    cases ha with
    | map hnodup hxs =>
      cases hb with
      | map hnodup' hys =>
        have hparts : List.Forall₂ (ToldApart entryLiteral) xs ys := by
          have hperm := (List.perm_ext_iff_of_nodup hnodup hnodup').mpr hkeys
          have hlength := hperm.length_eq
          rw [List.length_map, List.length_map] at hlength
          refine List.forall₂_iff_zip.mpr ⟨hlength, @fun e d hzip => ?_⟩
          obtain ⟨he, hd⟩ := List.of_mem_zip hzip
          refine toldApart_entryLiteral fun hkey => ?_
          exact ih e.1 e.2 d.2 he (hkey ▸ hd) (hxs e he) (hys d hd)
        intro r s heq
        rw [literal, literal, literalEntries_eq, literalEntries_eq] at heq
        obtain ⟨rfl, hend⟩ := toldApart_brackets hparts r s heq
        exact ⟨rfl, hend⟩

end Value

end StaticReflection
