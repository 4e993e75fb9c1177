import StaticReflection.Proofs.Declaration.NameScope
import StaticReflection.Proofs.Text.Blank

/-!
# Spellings of a name

A name may be written with the letters of ASCII in either case, and after backslashes. Blanks
are trimmed before backslashes are, so that a blank which a name begins with stays behind
backslashes, and is gone without them; `Identifier.Spells` leaves those spellings out.

> `Identifier.Spells.normalize`: all spellings of a name have its key, and still have it when
> the backslashes before them are dropped first.

A locator is asked for what trimming leaves of an identifier, and takes the key of that. It is
the key of the identifier if that begins with no blank (`Identifier.normalize_trimmed`).
-/

namespace StaticReflection

open LetterCase CaseTable

namespace LetterCase

/-! ## The case of ASCII letters -/

/-- Only capital letters have another lower case. -/
theorem toLower_cases (c : Char) : c.toLower = c ∨ ∃ i < 26, c = Char.ofNat (65 + i) := by
  unfold Char.toLower
  split
  next h =>
    have hfirst : 65 ≤ c.toNat := h.1
    have hlast : c.toNat ≤ 90 := h.2
    refine .inr ⟨c.toNat - 65, by omega, ?_⟩
    rw [Nat.add_sub_cancel' hfirst, Char.ofNat_toNat]
  next => exact .inl rfl

theorem capital_toLower : ∀ i < 26, (Char.ofNat (65 + i)).toLower ≠ '\\'
    ∧ lowerChar (Char.ofNat (65 + i)).toLower = lowerChar (Char.ofNat (65 + i))
    ∧ (Char.ofNat (65 + i)).toNat ≠ 0x3a3 ∧ (Char.ofNat (65 + i)).toLower.toNat ≠ 0x3a3
    ∧ inRanges ignorableRanges (Char.ofNat (65 + i)).toLower.toNat
      = inRanges ignorableRanges (Char.ofNat (65 + i)).toNat
    ∧ inRanges casedRanges (Char.ofNat (65 + i)).toLower.toNat
      = inRanges casedRanges (Char.ofNat (65 + i)).toNat := by decide +kernel

theorem eq_backslash_of_toLower {c : Char} (h : c.toLower = '\\') : c = '\\' := by
  rcases toLower_cases c with hsame | ⟨i, hi, rfl⟩
  · rw [← hsame, h]
  · exact absurd h (capital_toLower i hi).1

theorem meetsCased_toLower (cs : List Char) : meetsCased (cs.map Char.toLower) = meetsCased cs := by
  induction cs with
  | nil => rfl
  | cons c cs ih =>
    rw [List.map_cons, meetsCased, meetsCased, ih]
    rcases toLower_cases c with hsame | ⟨i, hi, rfl⟩
    · rw [hsame]
    · obtain ⟨_, _, _, _, hignorable, hcased⟩ := capital_toLower i hi
      rw [hignorable, hcased]

theorem small_toLower (isFinal : Bool) (c : Char) : small isFinal c.toLower = small isFinal c := by
  rcases toLower_cases c with hsame | ⟨i, hi, rfl⟩
  · rw [hsame]
  · obtain ⟨_, hlower, hsigma, hsigma', _⟩ := capital_toLower i hi
    unfold small
    rw [if_neg hsigma, if_neg hsigma', hlower]

theorem lowerFrom_toLower (before cs : List Char) :
    lowerFrom (before.map Char.toLower) (cs.map Char.toLower) = lowerFrom before cs := by
  induction cs generalizing before with
  | nil => rfl
  | cons c cs ih =>
    rw [List.map_cons, lowerFrom_cons, lowerFrom_cons, meetsCased_toLower, meetsCased_toLower,
      small_toLower, ← List.map_cons, ih]

end LetterCase

namespace Identifier

/-- Two texts are the same but for the case of ASCII letters. -/
def SameLetters (x name : String) : Prop := x.toList.map Char.toLower = name.toList.map Char.toLower

/-- A text after some backslashes. -/
def spelled (n : Nat) (x : String) : String := String.ofList (List.replicate n '\\' ++ x.toList)

/-- A name that begins with no blank and no backslash. -/
def IsBare (name : String) : Prop := ∀ c, name.toList.head? = some c → isEdge c = false

theorem lower_congr {x name : String} (h : SameLetters x name) : lower x = lower name := by
  unfold SameLetters at h
  unfold lower
  rw [← lowerFrom_toLower, ← lowerFrom_toLower [] name.toList, h]

/-! ## Bare names -/

variable {s x name : String}

theorem isBare_lower : IsBare (lower s) ↔ IsBare s := by
  unfold IsBare lower
  rw [String.toList_ofList]
  cases s.toList with
  | nil => exact Iff.rfl
  | cons c rest =>
    rw [lowerFrom_cons]
    simp only [List.head?_cons, Option.some.injEq, forall_eq']
    cases hsmall : small (meetsCased [] && !meetsCased rest) c with
    | nil => exact absurd hsmall (small_ne_nil _ c)
    | cons d ds =>
      simp only [List.cons_append, List.head?_cons, Option.some.injEq, forall_eq']
      cases hc : isEdge c with
      | true =>
        rw [small_edge hc] at hsmall
        rw [← (List.cons.inj hsmall).1, hc]
      | false =>
        exact iff_of_true (not_edge_of_mem_small hc (hsmall ▸ List.mem_cons_self ..)) rfl

theorem IsBare.of_prefix (h : IsBare name) (hstart : s.toList <+: name.toList) : IsBare s := by
  intro c hc
  obtain ⟨rest, hrest⟩ := hstart
  refine h c ?_
  rw [← hrest, List.head?_append, hc]
  rfl

theorem dropLeading_of_head (h : s.toList.head? ≠ some '\\') : dropLeading s = s := by
  have hlist : s.toList.dropWhile (· == '\\') = s.toList := by
    cases hs : s.toList with
    | nil => rfl
    | cons c rest =>
      refine List.dropWhile_cons_of_neg fun hc => h ?_
      rw [hs, eq_of_beq hc]
      rfl
  unfold dropLeading
  rw [hlist, String.ofList_toList]

theorem IsBare.dropLeading (h : IsBare s) : dropLeading s = s :=
  dropLeading_of_head fun hc => absurd (h _ hc) (by decide)

theorem IsBare.head_not_blank (h : IsBare s) (c : Char) (hc : s.toList.head? = some c) :
    Blank.isBlank c = false := by
  have hedge := h c hc
  unfold isEdge at hedge
  exact (Bool.or_eq_false_iff.mp hedge).1

theorem IsBare.dropStart (h : IsBare s) : Blank.dropStart s.toList = s.toList :=
  Blank.dropStart_of_head h.head_not_blank

theorem IsBare.trimmed (h : IsBare s) : trimmed s = Blank.strip s := by
  refine IsBare.dropLeading (h.of_prefix ?_)
  rw [Blank.toList_strip, h.dropStart]
  exact Blank.prefix_dropEnd s.toList

/-! ## Keys -/

/-- The key may be taken of what trimming leaves, if it begins with no blank. -/
theorem normalize_trimmed (h : IsBare (normalize x)) :
    normalize (dropLeading (trimmed x)) = normalize x := by
  have hbare : IsBare (trimmed x) := isBare_lower.mp h
  have htrimmed : Blank.IsTrimmed (trimmed x).toList := by
    refine ⟨hbare.head_not_blank, fun c hc => ?_⟩
    -- dropping backslashes leaves the end as it is
    have hsuffix : (trimmed x).toList <:+ (Blank.strip x).toList := by
      unfold trimmed Identifier.dropLeading
      rw [String.toList_ofList]
      exact List.dropWhile_suffix _
    obtain ⟨start, hstart⟩ := hsuffix
    refine (Blank.isTrimmed_strip x).last c ?_
    rw [← hstart, List.getLast?_append, hc]
    rfl
  rw [hbare.dropLeading]
  unfold normalize
  rw [hbare.trimmed, Blank.strip_of_isTrimmed htrimmed]

theorem dropLeading_spelled (n : Nat) (x : String) : dropLeading (spelled n x) = dropLeading x := by
  unfold dropLeading spelled
  rw [String.toList_ofList,
    List.dropWhile_append_of_pos fun c hc => beq_iff_eq.mpr (List.eq_of_mem_replicate hc)]

theorem trimmed_spelled (n : Nat) (h : IsBare x) : trimmed (spelled n x) = trimmed x := by
  have hstart : Blank.dropStart (List.replicate n '\\' ++ x.toList)
      = List.replicate n '\\' ++ x.toList := by
    cases n with
    | zero => exact h.dropStart
    | succ n => exact Blank.dropStart_of_head fun c hc => by cases hc; rfl
  have hend (c : Char) (hc : (List.replicate n '\\').getLast? = some c) :
      Blank.isBlank c = false := by
    rw [List.eq_of_mem_replicate (List.mem_of_getLast? hc)]
    rfl
  have hstrip : Blank.strip (spelled n x) = spelled n (Blank.strip x) := by
    unfold Blank.strip spelled
    rw [String.toList_ofList, String.toList_ofList, hstart, h.dropStart,
      Blank.dropEnd_append hend]
  unfold trimmed
  rw [hstrip, dropLeading_spelled]

/-- Spellings of a name: as it is written, or after backslashes if the name begins with no blank.
No name begins with a backslash itself. -/
inductive Spells (name : String) : String → Prop where
  | written {x : String} (hx : SameLetters x name) (hname : name.toList.head? ≠ some '\\') :
    Spells name x
  | rooted (n : Nat) {x : String} (hx : SameLetters x name) (hname : IsBare name) :
    Spells name (spelled n x)

theorem dropLeading_written (hx : SameLetters x name) (hname : name.toList.head? ≠ some '\\') :
    dropLeading x = x := by
  unfold SameLetters at hx
  refine dropLeading_of_head fun hc => hname ?_
  -- a backslash has no other case
  have hhead := congrArg List.head? hx
  rw [List.head?_map, List.head?_map, hc] at hhead
  obtain ⟨d, hd, hlower⟩ := Option.map_eq_some_iff.mp hhead.symm
  rw [hd, eq_backslash_of_toLower hlower]

/-- All spellings of a name have its key, with the backslashes or without. -/
theorem Spells.normalize (h : Spells name s) :
    normalize s = normalize name ∧ normalize (dropLeading s) = normalize name := by
  cases h with
  | written hx hname =>
    rw [dropLeading_written hx hname]
    exact ⟨normalize_congr (lower_congr hx), normalize_congr (lower_congr hx)⟩
  | @rooted n x hx hname =>
    have hlower := lower_congr hx
    have hbare : IsBare x := isBare_lower.mp (hlower ▸ isBare_lower.mpr hname)
    have hkey := normalize_congr hlower
    constructor
    · unfold Identifier.normalize at hkey ⊢
      rw [trimmed_spelled n hbare, hkey]
    · rw [dropLeading_spelled, hbare.dropLeading, hkey]

end Identifier

end StaticReflection
