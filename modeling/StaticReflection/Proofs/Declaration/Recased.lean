import Mathlib.Data.List.Forall2
import StaticReflection.Proofs.Decimal.Digits
import StaticReflection.Proofs.Declaration.Spelled
import StaticReflection.Proofs.Text.Utf8

/-!
# References in either letter case

The name of a class may be written with the letters of ASCII in either case. Whichever way it
is resolved, by its backslash, as a word of its own, relative to the namespace, by an import or
in the namespace, the full name keeps the letters and has them in the case as written.

> `NameScope.resolve_sameLetters`: names that differ in letter case only resolve to names that
differ in letter case only, and so have one key.

Texts that differ in letter case only have bytes that do (`Source.sameLetters_ofString`), and a
node covers texts that do in sources with such bytes (`Source.sameLetters_text`), damaged
characters included.
-/

namespace StaticReflection

open LetterCase

/-! ## Parts of a name -/

/-- A backslash has no other case, and no letter has it. -/
theorem LetterCase.toLower_eq_backslash_iff (c : Char) : c.toLower = '\\' ↔ c = '\\' :=
  ⟨eq_backslash_of_toLower, fun h => by rw [h]; rfl⟩

namespace Identifier

variable {a b : String}

theorem SameLetters.after (h : SameLetters a b) (start : String) :
    SameLetters (start ++ a) (start ++ b) := by
  unfold SameLetters at h ⊢
  rw [String.toList_append, String.toList_append, List.map_append, List.map_append, h]

theorem SameLetters.drop (h : SameLetters a b) (n : Nat) :
    SameLetters (String.ofList (a.toList.drop n)) (String.ofList (b.toList.drop n)) := by
  unfold SameLetters at h ⊢
  rw [String.toList_ofList, String.toList_ofList, List.map_drop, List.map_drop, h]

/-- Names that differ in letter case only are cut at the same backslash. -/
theorem SameLetters.cut {as bs : List Char} (h : as.map Char.toLower = bs.map Char.toLower) :
    (as.takeWhile (· != '\\')).map Char.toLower = (bs.takeWhile (· != '\\')).map Char.toLower
      ∧ (as.dropWhile (· != '\\')).map Char.toLower
        = (bs.dropWhile (· != '\\')).map Char.toLower := by
  induction as generalizing bs with
  | nil =>
    rw [List.map_nil] at h
    rw [List.map_eq_nil_iff.mp h.symm]
    exact ⟨rfl, rfl⟩
  | cons c as ih =>
    cases bs with
    | nil => cases h
    | cons d bs =>
      obtain ⟨hcd, hrest⟩ := List.cons.inj h
      obtain ⟨htake, hdrop⟩ := ih hrest
      by_cases hc : c = '\\'
      · have hd : d = '\\' := by
          rw [← toLower_eq_backslash_iff, ← hcd, toLower_eq_backslash_iff]
          exact hc
        rw [hc, hd]
        exact ⟨rfl, congrArg ('\\' :: ·) hrest⟩
      · have hd : d ≠ '\\' := by
          rw [Ne, ← toLower_eq_backslash_iff, ← hcd, toLower_eq_backslash_iff]
          exact hc
        rw [List.takeWhile_cons_of_pos (by simpa using hc),
          List.takeWhile_cons_of_pos (by simpa using hd),
          List.dropWhile_cons_of_pos (by simpa using hc),
          List.dropWhile_cons_of_pos (by simpa using hd), List.map_cons, List.map_cons, htake, hcd]
        exact ⟨rfl, hdrop⟩

theorem SameLetters.headSegment (h : SameLetters a b) :
    SameLetters (NameScope.headSegment a) (NameScope.headSegment b) := by
  unfold SameLetters NameScope.headSegment
  rw [String.toList_ofList, String.toList_ofList]
  exact (SameLetters.cut h).1

theorem SameLetters.tailSegments (h : SameLetters a b) :
    SameLetters (NameScope.tailSegments a) (NameScope.tailSegments b) := by
  unfold SameLetters NameScope.tailSegments
  rw [String.toList_ofList, String.toList_ofList]
  exact (SameLetters.cut h).2

theorem SameLetters.qualify (h : SameLetters a b) (namespaceName : String) :
    SameLetters (qualify namespaceName a) (qualify namespaceName b) := by
  unfold Identifier.qualify
  split
  · exact h
  · exact h.after (namespaceName ++ "\\")

/-- A name begins with a backslash in either letter case. -/
theorem SameLetters.backslash (h : SameLetters a b) :
    "\\".toList.isPrefixOf a.toList = "\\".toList.isPrefixOf b.toList := by
  unfold SameLetters at h
  have hlist : "\\".toList = ['\\'] := rfl
  rw [hlist]
  cases ha : a.toList with
  | nil =>
    rw [ha, List.map_nil] at h
    rw [List.map_eq_nil_iff.mp h.symm]
  | cons c as =>
    cases hb : b.toList with
    | nil => rw [ha, hb] at h; cases h
    | cons d bs =>
      rw [ha, hb] at h
      have hcd := (List.cons.inj h).1
      rw [List.isPrefixOf_cons_cons, List.isPrefixOf_cons_cons, List.isPrefixOf_nil_left,
        List.isPrefixOf_nil_left, Bool.and_true, Bool.and_true, Bool.eq_iff_iff, beq_iff_eq,
        beq_iff_eq, eq_comm, ← toLower_eq_backslash_iff, hcd, toLower_eq_backslash_iff, eq_comm]

end Identifier

open Identifier

/-- Names that differ in letter case only resolve to names that do. -/
theorem NameScope.resolve_sameLetters (s : NameScope) {a b : String} (h : SameLetters a b) :
    SameLetters (s.resolve a) (s.resolve b) := by
  have hlower := lower_congr h
  have hhead := lower_congr h.headSegment
  rw [resolve_eq, resolve_eq, h.backslash, hlower, hhead]
  by_cases hrooted : "\\".toList.isPrefixOf b.toList = true
  · rw [if_pos hrooted, if_pos hrooted]
    exact h.drop 1
  rw [if_neg hrooted, if_neg hrooted]
  by_cases hword : relativeWords.contains (lower b) = true
  · rw [if_pos hword, if_pos hword]
    exact h
  rw [if_neg hword, if_neg hword]
  by_cases hrelative : namespaceMark.toList.isPrefixOf (lower b).toList = true
  · rw [if_pos hrelative, if_pos hrelative]
    exact (h.drop _).qualify _
  rw [if_neg hrelative, if_neg hrelative]
  cases s.imports.find? (lower (headSegment b)) with
  | some path => exact h.tailSegments.after path
  | none => exact h.qualify _

/-- Names that differ in letter case only name the class of one key. -/
theorem NameScope.normalize_resolve (s : NameScope) {a b : String} (h : SameLetters a b) :
    normalize (s.resolve a) = normalize (s.resolve b) :=
  normalize_congr (lower_congr (s.resolve_sameLetters h))

/-! ## Sources in either letter case -/

namespace Utf8

/-- Bytes that are the same, or the same letter of ASCII in either case. -/
def SameLetter (a b : UInt8) : Prop :=
  a = b ∨ a.toNat < 0x80 ∧ b.toNat < 0x80
    ∧ (Char.ofNat a.toNat).toLower = (Char.ofNat b.toNat).toLower

/-- Characters with one small letter are the same, or both of ASCII. -/
theorem eq_or_ascii_of_toLower {c d : Char} (h : c.toLower = d.toLower) :
    c = d ∨ c.toNat ≤ 127 ∧ d.toNat ≤ 127 := by
  have hvalue := congrArg Char.toNat h
  rw [Numeral.toNat_toLower, Numeral.toNat_toLower] at hvalue
  by_cases hsame : c.toNat = d.toNat
  · exact .inl (Char.toNat_inj.mp hsame)
  · refine .inr ?_
    split at hvalue <;> split at hvalue <;> omega

theorem sameLetter_encodeChar {c d : Char} (h : c.toLower = d.toLower) :
    List.Forall₂ SameLetter (String.utf8EncodeChar c) (String.utf8EncodeChar d) := by
  rcases eq_or_ascii_of_toLower h with rfl | ⟨hc, hd⟩
  · exact List.forall₂_same.mpr fun _ _ => .inl rfl
  · have hone {e : Char} (he : e.toNat ≤ 127) :
        String.utf8EncodeChar e = [UInt8.ofNat e.toNat] := if_pos he
    rw [hone hc, hone hd]
    refine .cons (.inr ?_) .nil
    rw [toNat_ofNat_of_lt (by omega), toNat_ofNat_of_lt (by omega), Char.ofNat_toNat,
      Char.ofNat_toNat]
    exact ⟨by omega, by omega, h⟩

/-- The second byte of a character is beyond ASCII. -/
theorem low_of_leading? {b low high n : Nat} (h : leading? b = some (low, high, n)) :
    0x80 ≤ low := by
  unfold leading? at h
  grind

theorem low_of_start {b : Nat} {p : Pending} (h : (start b).2 = some p) : 0x80 ≤ p.low := by
  unfold start at h
  split at h
  · cases h
  · split at h
    next hlead =>
      cases h
      exact low_of_leading? hlead
    next => cases h

/-- A letter of ASCII ends what is under way in either case. -/
theorem decodeFrom_sameLetter {as bs : List UInt8} (h : List.Forall₂ SameLetter as bs)
    (p : Option Pending) (hp : ∀ q, p = some q → 0x80 ≤ q.low) :
    (decodeFrom p as).map Char.toLower = (decodeFrom p bs).map Char.toLower := by
  induction h generalizing p with
  | nil => rfl
  | @cons a b as bs hab _ ih =>
    have hstart : (start a.toNat).1.map Char.toLower = (start b.toNat).1.map Char.toLower
        ∧ (start a.toNat).2 = (start b.toNat).2 := by
      rcases hab with rfl | ⟨ha, hb, hletter⟩
      · exact ⟨rfl, rfl⟩
      · unfold start
        rw [if_pos ha, if_pos hb]
        exact ⟨congrArg ([·]) hletter, rfl⟩
    have hnext := ih (start b.toNat).2 fun q hq => low_of_start hq
    cases p with
    | none =>
      rw [decodeFrom, decodeFrom]
      simp only
      rw [List.map_append, List.map_append, hstart.1, hstart.2, hnext]
    | some q =>
      have hlow := hp q rfl
      rw [decodeFrom, decodeFrom]
      simp only
      rcases hab with rfl | ⟨ha, hb, -⟩
      · split
        · split
          · rw [List.map_cons, List.map_cons, ih none fun q hq => by cases hq]
          · refine ih _ fun q hq => ?_
            have hlow : 0x80 = q.low := congrArg Pending.low (Option.some.inj hq)
            exact Nat.le_of_eq hlow
        · rw [List.map_cons, List.map_cons, List.map_append, List.map_append, hnext]
      · rw [if_neg (by omega), if_neg (by omega), List.map_cons, List.map_cons, List.map_append,
          List.map_append, hstart.1, hstart.2, hnext]

end Utf8

/-- Two sources whose bytes differ in the case of ASCII letters only. -/
def Source.SameLetters (s t : Source) : Prop :=
  List.Forall₂ Utf8.SameLetter s.bytes.toList t.bytes.toList

/-- Texts that differ in letter case only have such bytes. -/
theorem Source.sameLetters_ofString {a b : String} (h : Identifier.SameLetters a b) :
    (ofString a).SameLetters (ofString b) := by
  have hchars : List.Forall₂ Eq (a.toList.map Char.toLower) (b.toList.map Char.toLower) := by
    rw [List.forall₂_eq_eq_eq]
    exact h
  rw [List.forall₂_map_left_iff, List.forall₂_map_right_iff] at hchars
  unfold Source.SameLetters
  rw [← String.ofList_toList (s := a), ← String.ofList_toList (s := b), toList_bytes_ofString,
    toList_bytes_ofString]
  exact List.rel_flatMap hchars fun _ _ => Utf8.sameLetter_encodeChar

/-- What a node covers differs in letter case only, if the sources do. -/
theorem Source.sameLetters_text {s t : Source} (h : s.SameLetters t) (n : Node) :
    Identifier.SameLetters (s.text n) (t.text n) := by
  have hslice : List.Forall₂ Utf8.SameLetter (s.bytes.extract n.start n.stop).toList
      (t.bytes.extract n.start n.stop).toList := by
    rw [Array.toList_extract, Array.toList_extract, List.extract_eq_take_drop,
      List.extract_eq_take_drop]
    exact List.forall₂_take _ (List.forall₂_drop _ h)
  unfold Identifier.SameLetters Source.text Source.slice Utf8.decode
  rw [String.toList_ofList, String.toList_ofList]
  exact Utf8.decodeFrom_sameLetter hslice none fun q hq => by cases hq

end StaticReflection
