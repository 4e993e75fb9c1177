import StaticReflection.Proofs.Value.Accumulator
import StaticReflection.Proofs.Value.Export

/-!
# Values built from scalars and arrays

A `Built` value is null, a truth value, an integer of 64 bits, a text without surrogates, or an
array that elements were added to (`Accumulator.Producible`) with such values in it. Each key of
such an array is there once, and is what a key becomes when it is used as one again
(`Accumulator.Producible.entries_nodup`, `Accumulator.Producible.normal`).
-/

namespace StaticReflection

/-- A key is the key that it is as a value. -/
def Key.IsNormal (k : Key) : Prop := Key.ofValue k.toValue = .ok k

namespace Key

theorem isNormal_int (n : Int) : (int n).IsNormal := rfl

theorem isNormal_of_ofText {t : Text} {k : Key} (h : ofText t = .ok k) : k.IsNormal := by
  cases k with
  | int n => exact isNormal_int n
  | text s =>
    have hs : s = t := by
      unfold ofText at h
      split at h
      · split at h
        · split at h <;> cases h
          rfl
        · cases h
      · cases h
        rfl
    exact hs ▸ h

theorem isNormal_of_ofValue {v : Value} {k : Key} (h : ofValue v = .ok k) : k.IsNormal := by
  cases v with
  | null =>
    cases h
    rfl
  | bool b =>
    cases h
    exact isNormal_int _
  | int n =>
    cases h
    exact isNormal_int n
  | float x =>
    rw [ofValue, ofFloat] at h
    split at h
    · cases h
    · cases h
    · cases h
      exact isNormal_int _
  | constantNaN _ => cases h
  | text t => exact isNormal_of_ofText h
  | list _ => cases h
  | map _ => cases h

end Key

namespace Accumulator

/-- An array that elements were added to, from the empty one on. -/
inductive Producible : Accumulator → Prop
  | empty : Producible empty
  | append {a : Accumulator} (h : Producible a) (v : Value) : Producible (a.append v)
  | set {a b : Accumulator} {key v : Value} (h : Producible a) (hset : a.set key v = .ok b) :
    Producible b
  | extend {a b : Accumulator} {v : Value} (h : Producible a) (hadd : a.extend v = .ok b) :
    Producible b

theorem keys_put (k : Key) (v : Value) (es : List (Key × Value)) :
    (put k v es).map (·.1)
      = if k ∈ es.map (·.1) then es.map (·.1) else es.map (·.1) ++ [k] := by
  induction es with
  | nil => rfl
  | cons e rest ih =>
    obtain ⟨j, w⟩ := e
    rw [put, List.map_cons]
    by_cases hj : j = k
    · rw [if_pos hj, if_pos (List.mem_cons.mpr (.inl hj.symm)), List.map_cons]
    · have hmem : k ∈ j :: rest.map (·.1) ↔ k ∈ rest.map (·.1) :=
        List.mem_cons.trans (or_iff_right fun h => hj h.symm)
      rw [if_neg hj, List.map_cons, ih]
      simp only [hmem]
      split <;> rfl

/-- An entry with a new key is put at the end. -/
theorem put_of_not_mem {k : Key} {v : Value} {es : List (Key × Value)}
    (h : k ∉ es.map (·.1)) : put k v es = es ++ [(k, v)] := by
  induction es with
  | nil => rfl
  | cons e rest ih =>
    obtain ⟨j, w⟩ := e
    rw [List.map_cons, List.mem_cons, not_or] at h
    rw [put, if_neg (Ne.symm h.1), ih h.2, List.cons_append]

theorem Grows.nodup {P : Key → Value → Prop} {a b : Accumulator} (h : Grows P a b)
    (ha : a.keys.Nodup) : b.keys.Nodup := by
  induction h with
  | refl => exact ha
  | @insert b k v _ _ ih =>
    show ((put k v b.entries).map (·.1)).Nodup
    rw [keys_put]
    split
    next => exact ih
    next hk => exact List.nodup_append.mpr ⟨ih, List.pairwise_singleton _ k, fun x hx y hy => by
        rw [List.mem_singleton.mp hy]
        rintro rfl
        exact hk hx⟩

/-! ## Entries inserted one after the other -/

/-- The array with some entries inserted in order. -/
def insertAll (a : Accumulator) (es : List (Key × Value)) : Accumulator :=
  es.foldl (fun a e => a.insert e.1 e.2) a

/-- Entries with new keys, each another one, are put at the end. -/
theorem entries_insertAll {a : Accumulator} {es : List (Key × Value)}
    (h : (a.entries.map (·.1) ++ es.map (·.1)).Nodup) :
    (a.insertAll es).entries = a.entries ++ es := by
  induction es generalizing a with
  | nil => exact (List.append_nil _).symm
  | cons e rest ih =>
    have hnew : e.1 ∉ a.entries.map (·.1) := fun he =>
      (List.nodup_append.mp h).2.2 _ he _ (List.mem_cons_self ..) rfl
    have hentries : (a.insert e.1 e.2).entries = a.entries ++ [e] := put_of_not_mem hnew
    show ((a.insert e.1 e.2).insertAll rest).entries = _
    rw [ih, hentries, List.append_assoc, List.singleton_append]
    rw [hentries, List.map_append, List.append_assoc]
    exact h

theorem nodup_insertAll {a : Accumulator} (ha : (a.entries.map (·.1)).Nodup)
    (es : List (Key × Value)) : ((a.insertAll es).entries.map (·.1)).Nodup := by
  induction es generalizing a with
  | nil => exact ha
  | cons e rest ih =>
    have hone : Grows (fun _ _ => True) a (a.insert e.1 e.2) := .insert .refl trivial
    exact ih (hone.nodup ha)

theorem length_insert (a : Accumulator) (k : Key) (v : Value) :
    (a.insert k v).entries.length
      = if k ∈ a.entries.map (·.1) then a.entries.length else a.entries.length + 1 := by
  have hkeys := congrArg List.length (keys_put k v a.entries)
  rw [List.length_map] at hkeys
  refine hkeys.trans ?_
  split
  · rw [List.length_map]
  · rw [List.length_append, List.length_map, List.length_singleton]

theorem length_insertAll_le (a : Accumulator) (es : List (Key × Value)) :
    (a.insertAll es).entries.length ≤ a.entries.length + es.length := by
  induction es generalizing a with
  | nil => exact Nat.le_refl _
  | cons e rest ih =>
    have hrest := ih (a.insert e.1 e.2)
    rw [length_insert] at hrest
    show ((a.insert e.1 e.2).insertAll rest).entries.length ≤ _
    rw [List.length_cons]
    split at hrest <;> omega

/-- Entries of which none took the place of another are there as they were inserted. -/
theorem entries_insertAll_of_length {a : Accumulator} {es : List (Key × Value)}
    (h : (a.insertAll es).entries.length = a.entries.length + es.length) :
    (a.insertAll es).entries = a.entries ++ es := by
  induction es generalizing a with
  | nil => exact (List.append_nil _).symm
  | cons e rest ih =>
    have hle := length_insertAll_le (a.insert e.1 e.2) rest
    have hall : ((a.insert e.1 e.2).insertAll rest).entries.length
        = a.entries.length + (rest.length + 1) := h
    have hlength := length_insert a e.1 e.2
    have hnew : e.1 ∉ a.entries.map (·.1) := by
      intro he
      rw [if_pos he] at hlength
      omega
    rw [if_neg hnew] at hlength
    have hentries : (a.insert e.1 e.2).entries = a.entries ++ [e] := put_of_not_mem hnew
    show ((a.insert e.1 e.2).insertAll rest).entries = _
    rw [ih (by omega), hentries, List.append_assoc, List.singleton_append]

/-! ## Elements without keys -/

/-- The array of some items in order. -/
def ofItems (items : List Value) : Accumulator := ⟨(Value.list items).entries, items.length⟩

theorem append_ofItems (items : List Value) (v : Value) :
    (ofItems items).append v = ofItems (items ++ [v]) := by
  have hnew : Key.int items.length ∉ (Value.list items).entries.map (·.1) := by
    intro h
    obtain ⟨e, he, hkey⟩ := List.mem_map.mp h
    obtain ⟨i, hi, rfl⟩ := List.mem_mapIdx.mp he
    have := Key.int.inj hkey
    omega
  have hlast : (Value.list (items ++ [v])).entries
      = (Value.list items).entries ++ [(.int items.length, v)] := List.mapIdx_concat
  have hlength : ((items ++ [v]).length : Int) = items.length + 1 := by
    rw [List.length_append, List.length_singleton, Int.natCast_add]
    rfl
  unfold ofItems append
  rw [put_of_not_mem hnew, hlast, hlength]

theorem foldl_append_ofItems (before items : List Value) :
    items.foldl append (ofItems before) = ofItems (before ++ items) := by
  induction items generalizing before with
  | nil => rw [List.foldl_nil, List.append_nil]
  | cons v rest ih =>
    rw [List.foldl_cons, append_ofItems, ih, List.append_assoc, List.singleton_append]

theorem countsFrom_mapIdx (n : Int) (items : List Value) :
    countsFrom n (items.mapIdx fun i v => (.int (n + i), v)) = true := by
  induction items generalizing n with
  | nil => rfl
  | cons v rest ih =>
    have hshift : (fun (i : Nat) (v : Value) => (Key.int (n + (i + 1 : Nat)), v))
        = fun i v => (.int (n + 1 + i), v) := by
      funext i v
      rw [Int.natCast_add, Int.add_comm i, ← Int.add_assoc]
      rfl
    rw [List.mapIdx_cons, hshift, countsFrom, ih, Bool.and_true, beq_iff_eq]
    show Key.int (n + (0 : Nat)) = .int n
    rw [Int.natCast_zero, Int.add_zero]

theorem countsFrom_entries (items : List Value) :
    countsFrom 0 (Value.list items).entries = true := by
  have h := countsFrom_mapIdx 0 items
  simp only [Int.zero_add] at h
  exact h

theorem values_entries (items : List Value) : (Value.list items).entries.map (·.2) = items := by
  show (items.mapIdx fun i v => (Key.int i, v)).map (·.2) = items
  refine List.ext_getElem (by rw [List.length_map, List.length_mapIdx]) fun i _ _ => ?_
  rw [List.getElem_map, List.getElem_mapIdx]

/-- Elements without keys, from the empty array on, make a list. -/
theorem value_foldl_append (items : List Value) :
    (items.foldl append empty).value = .list items := by
  have hall : items.foldl append empty = ofItems items := foldl_append_ofItems [] items
  rw [hall]
  unfold value valueOf ofItems
  rw [if_pos (countsFrom_entries items), values_entries]

namespace Producible

variable {a : Accumulator}

/-- An array that elements were added to grew from the empty one, key by normal key. -/
theorem grows (h : Producible a) : Grows (fun k _ => k.IsNormal) Accumulator.empty a := by
  induction h with
  | empty => exact .refl
  | append _ v ih =>
    exact ih.trans (grows_append (ih.sound sound_empty) fun n _ => Key.isNormal_int n)
  | set _ hset ih => exact ih.trans (grows_set hset fun _ hk => Key.isNormal_of_ofValue hk)
  | extend _ hadd ih =>
    exact ih.trans (grows_extend (ih.sound sound_empty) hadd (fun _ _ n _ => Key.isNormal_int n)
      fun _ _ _ _ hk => Key.isNormal_of_ofText hk)

/-- No key is there twice. -/
theorem keys_nodup (h : Producible a) : (a.entries.map (·.1)).Nodup := h.grows.nodup List.nodup_nil

theorem normal (h : Producible a) : ∀ e ∈ a.entries, e.1.IsNormal :=
  h.grows.forall_entries fun _ he => by cases he

end Producible

end Accumulator

namespace Value

/-- A value of scalars, texts without surrogates, and arrays that elements were added to. -/
inductive Built : Value → Prop
  | null : Built .null
  | bool (b : Bool) : Built (.bool b)
  | int {n : Int} (h : fitsInt n = true) : Built (.int n)
  | text {t : Text} (h : t.isEncodable = true) : Built (.text t)
  | array {a : Accumulator} (h : a.Producible)
    (hkeys : ∀ e ∈ a.entries, e.1.toValue.toText.isEncodable = true)
    (hvalues : ∀ e ∈ a.entries, Built e.2) : Built a.value

theorem itemsAreEncodable_iff {items : List Value} :
    itemsAreEncodable items = true ↔ ∀ v ∈ items, v.isEncodable = true := by
  induction items with
  | nil => exact ⟨fun _ _ h => (by cases h), fun _ => rfl⟩
  | cons v rest ih => rw [itemsAreEncodable, Bool.and_eq_true, ih, List.forall_mem_cons]

theorem entriesAreEncodable_iff {entries : List (Key × Value)} :
    entriesAreEncodable entries = true
      ↔ ∀ e ∈ entries, e.1.toValue.toText.isEncodable = true ∧ e.2.isEncodable = true := by
  induction entries with
  | nil => exact ⟨fun _ _ h => (by cases h), fun _ => rfl⟩
  | cons e rest ih =>
    rw [entriesAreEncodable, Bool.and_eq_true, Bool.and_eq_true, ih, List.forall_mem_cons]

/-- A built value has no surrogates. -/
theorem Built.isEncodable {v : Value} (h : v.Built) : v.isEncodable = true := by
  induction h with
  | null => rfl
  | bool => rfl
  | int => rfl
  | text h => exact h
  | @array a _ hkeys _ ih =>
    unfold Accumulator.value Accumulator.valueOf
    split
    · refine itemsAreEncodable_iff.mpr fun v hv => ?_
      obtain ⟨e, he, rfl⟩ := List.mem_map.mp hv
      exact ih e he
    · exact entriesAreEncodable_iff.mpr fun e he => ⟨hkeys e he, ih e he⟩

end Value

end StaticReflection
