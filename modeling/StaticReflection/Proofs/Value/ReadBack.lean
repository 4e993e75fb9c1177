import Mathlib.Data.List.Forall2
import StaticReflection.Proofs.Decimal.Digits
import StaticReflection.Proofs.Value.Built
import StaticReflection.Proofs.Value.Range

/-!
# The values that literals have

`Value.reread` is the value of the literal of a value. An integer without its sign is an integer
literal, and beyond the greatest integer such a literal is a double; all else comes back as it
is. So the least integer does not come back, and nor do those keys beyond 64 bits that are not
the whole part of the double nearest to them (`Value.Survives`).

> `Value.Built.reread_iff`: a built value that can be exported comes back from its literal exactly
> if it survives.
-/

namespace StaticReflection

open Outcome

/-! ## Rereading -/

namespace Value

/-- The value of an integer's literal: a double, with a sign if it has one, beyond the greatest
integer. -/
def rereadInt (m : Int) : Outcome Value :=
  if Numeral.maxDigits < (Nat.toDigits 10 m.natAbs).length then Outcome.fault .malformedNumber
  else if intMax < m.natAbs then do
    let x ← floatOfInt m.natAbs
    return .float (if m < 0 then -x else x)
  else .ok (.int m)

end Value

/-- The value of a key's literal. -/
def Key.reread : Key → Outcome Value
  | .int m => Value.rereadInt m
  | .text t => .ok (.text t)

namespace Value

mutual

/-- The value of a value's literal; doubles are left as they are. -/
def reread : Value → Outcome Value
  | .int m => rereadInt m
  | .list items => do return (← rereadItems items Accumulator.empty).value
  | .map entries => do return (← rereadEntries entries Accumulator.empty).value
  | v => .ok v

/-- The array with items added to it, each the value of an item's literal. -/
def rereadItems : List Value → Accumulator → Outcome Accumulator
  | [], acc => .ok acc
  | v :: rest, acc => do rereadItems rest (acc.append (← reread v))

/-- The array with elements set in it, each the value of a literal at that of a key's. -/
def rereadEntries : List (Key × Value) → Accumulator → Outcome Accumulator
  | [], acc => .ok acc
  | (k, v) :: rest, acc => do
    let key ← k.reread
    let value ← reread v
    rereadEntries rest (← acc.set key value)

end

end Value

/-! ## What comes back -/

/-- An integer key survives if it fits without its sign, or is the whole part of the double that
its digits are; other keys always do. -/
def Key.Survives : Key → Prop
  | .int m => m.natAbs ≤ intMax
    ∨ ∃ x, Value.floatOfInt m.natAbs = .ok x ∧ ofFloat (if m < 0 then -x else x) = .ok (.int m)
  | .text _ => True

namespace Value

mutual

/-- The least integer is nowhere among the values, and every key survives. -/
def Survives : Value → Prop
  | .int m => m ≠ intMin
  | .list items => ItemsSurvive items
  | .map entries => EntriesSurvive entries
  | _ => True

/-- All items survive. -/
def ItemsSurvive : List Value → Prop
  | [] => True
  | v :: rest => Survives v ∧ ItemsSurvive rest

/-- All keys and values of entries survive. -/
def EntriesSurvive : List (Key × Value) → Prop
  | [] => True
  | (k, v) :: rest => (k.Survives ∧ Survives v) ∧ EntriesSurvive rest

end

theorem itemsSurvive_iff {items : List Value} : ItemsSurvive items ↔ ∀ v ∈ items, v.Survives := by
  induction items with
  | nil => exact ⟨fun _ _ h => (by cases h), fun _ => trivial⟩
  | cons v rest ih => rw [ItemsSurvive, ih, List.forall_mem_cons]

theorem entriesSurvive_iff {entries : List (Key × Value)} :
    EntriesSurvive entries ↔ ∀ e ∈ entries, e.1.Survives ∧ e.2.Survives := by
  induction entries with
  | nil => exact ⟨fun _ _ h => (by cases h), fun _ => trivial⟩
  | cons e rest ih => rw [EntriesSurvive, ih, List.forall_mem_cons]

theorem itemsAreShort_iff {items : List Value} :
    itemsAreShort items = true ↔ ∀ v ∈ items, v.isShort = true := by
  induction items with
  | nil => exact ⟨fun _ _ h => (by cases h), fun _ => rfl⟩
  | cons v rest ih => rw [itemsAreShort, Bool.and_eq_true, ih, List.forall_mem_cons]

theorem entriesAreShort_iff {entries : List (Key × Value)} :
    entriesAreShort entries = true
      ↔ ∀ e ∈ entries, e.1.toValue.isWritable = true ∧ e.2.isShort = true := by
  induction entries with
  | nil => exact ⟨fun _ _ h => (by cases h), fun _ => rfl⟩
  | cons e rest ih =>
    rw [entriesAreShort, Bool.and_eq_true, Bool.and_eq_true, ih, List.forall_mem_cons]

/-! ## Integers and keys -/

theorem length_toDigits_le {n k : Nat} (hk : 0 < k) (h : n < Nat.pow 10 k) :
    (Nat.toDigits 10 n).length ≤ k := (Nat.length_toDigits_le_iff (by decide) hk).mpr h

theorem isWritable_int {m : Int} :
    (int m).isWritable = true ↔ m.natAbs < Nat.pow 10 Numeral.maxDigits := by
  rw [isWritable, decide_eq_true_eq]

theorem lt_pow_ten {n k : Nat} (hn : n < 10000000000000000000) (hk : 19 ≤ k) :
    n < Nat.pow 10 k := by
  have hpow : 10 ^ 19 ≤ 10 ^ k := Nat.pow_le_pow_right (by decide) hk
  exact Nat.lt_of_lt_of_le hn hpow

/-- The literal of an integer that can be written is not too long to read. -/
theorem rereadInt_eq {m : Int} (h : (int m).isWritable = true) :
    rereadInt m = if intMax < m.natAbs then do
        let x ← floatOfInt m.natAbs
        return .float (if m < 0 then -x else x)
      else .ok (.int m) := by
  have hlength : (Nat.toDigits 10 m.natAbs).length ≤ Numeral.maxDigits :=
    length_toDigits_le (by decide) (isWritable_int.mp h)
  unfold rereadInt
  rw [if_neg (Nat.not_lt.mpr hlength)]

theorem rereadInt_iff {m : Int} (h : (int m).isWritable = true) :
    rereadInt m = .ok (.int m) ↔ (m.natAbs : Int) ≤ intMax := by
  rw [rereadInt_eq h]
  by_cases hm : intMax < m.natAbs
  · rw [if_pos hm]
    refine ⟨fun hread => ?_, fun hle => absurd hm (Int.not_lt.mpr hle)⟩
    cases hx : floatOfInt m.natAbs with
    | error f => rw [hx] at hread; cases hread
    | ok x => rw [hx] at hread; cases hread
  · rw [if_neg hm]
    exact ⟨fun _ => Int.not_lt.mp hm, fun _ => rfl⟩

/-- An integer of 64 bits comes back unless it is the least one. -/
theorem rereadInt_iff_of_fits {m : Int} (h : fitsInt m = true) :
    rereadInt m = .ok (.int m) ↔ m ≠ intMin := by
  have hrange := fitsInt_iff.mp h
  have hwritable : (int m).isWritable = true :=
    isWritable_int.mpr (lt_pow_ten (by omega) (by decide))
  rw [rereadInt_iff hwritable]
  unfold intMax intMin
  omega

end Value

namespace Key

/-- The key that the value of a key's literal is. -/
def again (k : Key) : Outcome Key := do ofValue (← k.reread)

/-- A key comes back from its literal exactly if it survives. -/
theorem again_iff {k : Key} (hnormal : k.IsNormal) (h : k.toValue.isWritable = true) :
    k.again = .ok k ↔ k.Survives := by
  cases k with
  | text t => exact ⟨fun _ => trivial, fun _ => hnormal⟩
  | int m =>
    have hagain : (int m).again = (Value.rereadInt m >>= ofValue) := rfl
    rw [hagain, Value.rereadInt_eq h, Survives]
    by_cases hm : intMax < m.natAbs
    · rw [if_pos hm]
      cases hx : Value.floatOfInt m.natAbs with
      | error f =>
        refine ⟨fun hread => (by cases hread), fun hs => ?_⟩
        rcases hs with hle | ⟨x, hx', -⟩
        · exact absurd hm (Int.not_lt.mpr hle)
        · cases hx'
      | ok x =>
        refine ⟨fun hread => .inr ⟨x, rfl, hread⟩, fun hs => ?_⟩
        rcases hs with hle | ⟨x', hx', hkey⟩
        · exact absurd hm (Int.not_lt.mpr hle)
        · cases hx'
          exact hkey
    · rw [if_neg hm]
      exact ⟨fun _ => .inl (Int.not_lt.mp hm), fun _ => rfl⟩

end Key

/-! ## Arrays -/

namespace Value

/-- Items are reread one by one, and then added in order. -/
theorem rereadItems_iff {items : List Value} {a b : Accumulator} :
    rereadItems items a = .ok b
      ↔ ∃ ws, List.Forall₂ (fun v w => v.reread = .ok w) items ws
        ∧ b = ws.foldl Accumulator.append a := by
  induction items generalizing a with
  | nil =>
    rw [rereadItems]
    constructor
    · intro h
      cases h
      exact ⟨[], .nil, rfl⟩
    · rintro ⟨ws, hws, rfl⟩
      cases hws
      rfl
  | cons v rest ih =>
    rw [rereadItems, bind_eq_ok_iff]
    constructor
    · rintro ⟨w, hw, hrest⟩
      obtain ⟨ws, hws, rfl⟩ := ih.mp hrest
      exact ⟨w :: ws, .cons hw hws, rfl⟩
    · rintro ⟨ws, hws, rfl⟩
      cases hws with
      | cons hw hws => exact ⟨_, hw, ih.mpr ⟨_, hws, rfl⟩⟩

/-- Entries are reread one by one, and then inserted in order. -/
theorem rereadEntries_iff {entries : List (Key × Value)} {a b : Accumulator} :
    rereadEntries entries a = .ok b
      ↔ ∃ es, List.Forall₂ (fun e d => e.1.again = .ok d.1 ∧ e.2.reread = .ok d.2) entries es
        ∧ b = a.insertAll es := by
  induction entries generalizing a with
  | nil =>
    rw [rereadEntries]
    constructor
    · intro h
      cases h
      exact ⟨[], .nil, rfl⟩
    · rintro ⟨es, hes, rfl⟩
      cases hes
      rfl
  | cons e rest ih =>
    obtain ⟨k, v⟩ := e
    rw [rereadEntries, bind_eq_ok_iff]
    constructor
    · rintro ⟨key, hkey, h⟩
      obtain ⟨w, hw, h⟩ := bind_eq_ok_iff.mp h
      obtain ⟨acc, hset, hrest⟩ := bind_eq_ok_iff.mp h
      obtain ⟨j, hj, rfl⟩ := Accumulator.set_eq_ok hset
      obtain ⟨es, hes, rfl⟩ := ih.mp hrest
      exact ⟨(j, w) :: es, .cons ⟨bind_eq_ok_iff.mpr ⟨key, hkey, hj⟩, hw⟩ hes, rfl⟩
    · rintro ⟨es, hes, rfl⟩
      cases hes with
      | @cons _ d _ es hd hes =>
        obtain ⟨key, hkey, hj⟩ := bind_eq_ok_iff.mp hd.1
        have hset : a.set key d.2 = .ok (a.insert d.1 d.2) := bind_eq_ok_iff.mpr ⟨d.1, hj, rfl⟩
        exact ⟨key, hkey, bind_eq_ok_iff.mpr ⟨d.2, hd.2, bind_eq_ok_iff.mpr
          ⟨_, hset, ih.mpr ⟨es, hes, rfl⟩⟩⟩⟩

theorem reread_list_iff {items : List Value} :
    (Value.list items).reread = .ok (.list items) ↔ ∀ v ∈ items, v.reread = .ok v := by
  have hsame : (∀ v ∈ items, v.reread = .ok v)
      ↔ List.Forall₂ (fun v w => v.reread = .ok w) items items := by
    rw [List.forall₂_same]
  rw [hsame, reread, bind_eq_ok_iff]
  constructor
  · rintro ⟨b, hb, h⟩
    obtain ⟨ws, hws, rfl⟩ := rereadItems_iff.mp hb
    have hvalue : (ws.foldl Accumulator.append Accumulator.empty).value = .list items :=
      Except.ok.inj h
    rw [Accumulator.value_foldl_append] at hvalue
    cases hvalue
    exact hws
  · intro h
    exact ⟨_, rereadItems_iff.mpr ⟨items, h, rfl⟩,
      congrArg Except.ok (Accumulator.value_foldl_append items)⟩

/-- A map comes back if no key of it is there twice and all its entries come back. -/
theorem reread_map_iff {entries : List (Key × Value)} (hnodup : (entries.map (·.1)).Nodup)
    (hmap : Accumulator.valueOf entries = .map entries) :
    (Value.map entries).reread = .ok (.map entries)
      ↔ ∀ e ∈ entries, e.1.again = .ok e.1 ∧ e.2.reread = .ok e.2 := by
  have hsame : (∀ e ∈ entries, e.1.again = .ok e.1 ∧ e.2.reread = .ok e.2)
      ↔ List.Forall₂ (fun e d => e.1.again = .ok d.1 ∧ e.2.reread = .ok d.2) entries entries := by
    rw [List.forall₂_same]
  rw [hsame, reread, bind_eq_ok_iff]
  constructor
  · rintro ⟨b, hb, h⟩
    obtain ⟨es, hes, rfl⟩ := rereadEntries_iff.mp hb
    have hvalue : (Accumulator.empty.insertAll es).value = .map entries := Except.ok.inj h
    have hentries : (Accumulator.empty.insertAll es).entries = entries := by
      unfold Accumulator.value Accumulator.valueOf at hvalue
      split at hvalue
      · cases hvalue
      · exact Value.map.inj hvalue
    -- as many entries came out as were inserted, so none took the place of another
    have hlength : (Accumulator.empty.insertAll es).entries.length
        = Accumulator.empty.entries.length + es.length := by
      rw [hentries, hes.length_eq]
      exact (Nat.zero_add _).symm
    have hes' : es = entries :=
      (Accumulator.entries_insertAll_of_length hlength).symm.trans hentries
    rw [hes'] at hes
    exact hes
  · intro h
    have hentries : (Accumulator.empty.insertAll entries).entries = entries :=
      Accumulator.entries_insertAll hnodup
    refine ⟨_, rereadEntries_iff.mpr ⟨entries, h, rfl⟩, congrArg Except.ok ?_⟩
    unfold Accumulator.value
    rw [hentries, hmap]

/-- A built value that can be exported comes back from its literal exactly if it survives. -/
theorem Built.reread_iff {v : Value} (h : v.Built) (hshort : v.isShort = true) :
    v.reread = .ok v ↔ v.Survives := by
  induction h with
  | null => exact ⟨fun _ => trivial, fun _ => rfl⟩
  | bool b => exact ⟨fun _ => trivial, fun _ => rfl⟩
  | int hfits => exact rereadInt_iff_of_fits hfits
  | text _ => exact ⟨fun _ => trivial, fun _ => rfl⟩
  | @array a hproducible hkeys hvalues ih =>
    by_cases hlist : Accumulator.countsFrom 0 a.entries = true
    · have hvalue : a.value = .list (a.entries.map (·.2)) := if_pos hlist
      rw [hvalue] at hshort ⊢
      rw [reread_list_iff, Survives, itemsSurvive_iff]
      refine forall₂_congr fun v hv => ?_
      obtain ⟨e, he, rfl⟩ := List.mem_map.mp hv
      exact ih e he (itemsAreShort_iff.mp hshort _ hv)
    · have hvalue : a.value = .map a.entries := if_neg hlist
      rw [hvalue] at hshort ⊢
      rw [reread_map_iff hproducible.keys_nodup hvalue, Survives, entriesSurvive_iff]
      refine forall₂_congr fun e he => ?_
      obtain ⟨hkey, hval⟩ := entriesAreShort_iff.mp hshort e he
      exact and_congr (Key.again_iff (hproducible.normal e he) hkey) (ih e he hval)

end Value

end StaticReflection
