import StaticReflection.Proofs.Value.Building

/-!
# Arrays as values

An array that elements were added to has a value (`Value.IsProducible`), and of the array under
construction that value keeps the entries alone: they say whether it is a list or a map.

> `Value.isProducible_iff`: a value is that of such an array exactly if it is what its entries
> make, no key is there twice, and each key is what it becomes when it is used as one again.

So a result is an array that can be built as soon as its entries are known
(`Value.isProducible_valueOf`), and two such arrays with the same entries are the same value
(`Value.IsProducible.eq_of_entries`).
-/

namespace StaticReflection

namespace Accumulator

variable {a : Accumulator} {es : List (Key × Value)}

theorem Producible.insert (h : a.Producible) {k : Key} (hk : k.IsNormal) (v : Value) :
    (a.insert k v).Producible := .set h (set_of_ofValue hk v)

theorem Producible.insertAll (h : a.Producible) (hes : ∀ e ∈ es, e.1.IsNormal) :
    (a.insertAll es).Producible := by
  induction es generalizing a with
  | nil => exact h
  | cons e rest ih =>
    obtain ⟨he, hrest⟩ := List.forall_mem_cons.mp hes
    exact ih (h.insert he e.2) hrest

/-- Setting entries at keys that can be keys again is inserting them. -/
theorem foldlM_set (a : Accumulator) (hes : ∀ e ∈ es, e.1.IsNormal) :
    es.foldlM (fun acc e => acc.set e.1.toValue e.2) a = .ok (a.insertAll es) := by
  induction es generalizing a with
  | nil => rfl
  | cons e rest ih =>
    obtain ⟨he, hrest⟩ := List.forall_mem_cons.mp hes
    rw [List.foldlM_cons, set_of_ofValue he]
    exact ih (a.insert e.1 e.2) hrest

theorem entries_valueOf (es : List (Key × Value)) : (valueOf es).entries = es :=
  entries_value ⟨es, 0⟩

end Accumulator

namespace Value

open Accumulator

/-- The value of an array that elements were added to. -/
def IsProducible (v : Value) : Prop := ∃ a : Accumulator, a.Producible ∧ a.value = v

variable {u v : Value} {es : List (Key × Value)}

theorem isProducible_list (items : List Value) : (list items).IsProducible :=
  ⟨items.foldl append empty, .extend (v := list items) .empty rfl, value_foldl_append items⟩

theorem IsProducible.isArray (h : v.IsProducible) : v.isArray = true := by
  obtain ⟨a, -, rfl⟩ := h
  unfold Accumulator.value valueOf
  split <;> rfl

theorem IsProducible.keys_nodup (h : v.IsProducible) : (v.entries.map (·.1)).Nodup := by
  obtain ⟨a, ha, rfl⟩ := h
  rw [entries_value]
  exact ha.keys_nodup

theorem IsProducible.normal (h : v.IsProducible) : ∀ e ∈ v.entries, e.1.IsNormal := by
  obtain ⟨a, ha, rfl⟩ := h
  rw [entries_value]
  exact ha.normal

/-- An array is what its entries make. -/
theorem IsProducible.valueOf_entries (h : v.IsProducible) : valueOf v.entries = v := by
  obtain ⟨a, -, rfl⟩ := h
  rw [entries_value]
  rfl

/-- Entries with different keys, each of which can be a key again, make an array. -/
theorem isProducible_valueOf (hnodup : (es.map (·.1)).Nodup) (hnormal : ∀ e ∈ es, e.1.IsNormal) :
    (valueOf es).IsProducible := by
  have hentries : (empty.insertAll es).entries = es := entries_insertAll (a := empty) hnodup
  refine ⟨empty.insertAll es, Producible.empty.insertAll hnormal, ?_⟩
  rw [Accumulator.value, hentries]

/-- Which values are those of arrays that elements were added to. -/
theorem isProducible_iff : v.IsProducible
    ↔ valueOf v.entries = v ∧ (v.entries.map (·.1)).Nodup ∧ ∀ e ∈ v.entries, e.1.IsNormal := by
  constructor
  · exact fun h => ⟨h.valueOf_entries, h.keys_nodup, h.normal⟩
  · rintro ⟨hvalue, hnodup, hnormal⟩
    rw [← hvalue]
    exact isProducible_valueOf hnodup hnormal

/-- Arrays with the same entries in the same order are the same value. -/
theorem IsProducible.eq_of_entries (hu : u.IsProducible) (hv : v.IsProducible)
    (h : u.entries = v.entries) : u = v := by
  rw [← hu.valueOf_entries, h, hv.valueOf_entries]

end Value

end StaticReflection
