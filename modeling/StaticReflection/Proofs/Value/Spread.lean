import StaticReflection.Proofs.Value.Canonical

/-!
# Spreading arrays into one

Unpacking an array into another appends what it has at integer keys and sets what it has at texts.
Over several arrays that is one run over all their entries (`Accumulator.foldlM_extend`), and this
inserts the entries in order, with those at integer keys numbered anew
(`Accumulator.extendEntries_normal`). Of entries that are inserted in order each key keeps the place
at which it came first and has the value that came last (`Accumulator.keys_insertAll`,
`Accumulator.lookup_insertAll`); the new integer keys are all different, so none of their elements
is lost (`Accumulator.Sound.filter_spread`).

> `Accumulator.extend_each`: unpacking arrays one after the other into the empty one gives the one
> array that `Value.IsSpread` describes; of lists it is their concatenation, and unpacked alone it
> gives itself.
-/

namespace StaticReflection

/-- Whether a key is an integer. -/
def Key.isInt : Key → Bool
  | .int _ => true
  | .text _ => false

namespace Accumulator

/-- Entries with those at integer keys numbered anew, from an index on. -/
def renumbered (n : Int) : List (Key × Value) → List (Key × Value)
  | [] => []
  | (.int _, v) :: rest => (.int n, v) :: renumbered (n + 1) rest
  | (.text t, v) :: rest => (.text t, v) :: renumbered n rest

variable {a : Accumulator} {es fs : List (Key × Value)}

/-! ## One run over all entries -/

theorem extendEntries_append (a : Accumulator) (es fs : List (Key × Value)) :
    a.extendEntries (es ++ fs) = a.extendEntries es >>= fun b => b.extendEntries fs := by
  induction es generalizing a with
  | nil => rfl
  | cons e rest ih =>
    obtain ⟨_ | t, v⟩ := e
    · exact ih (a.append v)
    · rw [List.cons_append, extendEntries, extendEntries]
      cases a.set (.text t) v with
      | ok b => exact ih b
      | error f => rfl

/-- Entries at integer keys are appended. -/
theorem extendEntries_of_isInt (a : Accumulator) (h : ∀ e ∈ es, e.1.isInt = true) :
    a.extendEntries es = .ok ((es.map (·.2)).foldl append a) := by
  induction es generalizing a with
  | nil => rfl
  | cons e rest ih =>
    obtain ⟨he, hrest⟩ := List.forall_mem_cons.mp h
    obtain ⟨_ | t, v⟩ := e
    · exact ih (a.append v) hrest
    · cases he

theorem extend_of_isArray (a : Accumulator) {v : Value} (h : v.isArray = true) :
    a.extend v = a.extendEntries v.entries := by
  cases v with
  | list items =>
    have hint : ∀ e ∈ (Value.list items).entries, e.1.isInt = true := by
      intro e he
      obtain ⟨i, hi, rfl⟩ := List.mem_mapIdx.mp he
      rfl
    rw [extendEntries_of_isInt a hint, values_entries]
    rfl
  | map entries => rfl
  | _ => cases h

/-- Unpacking arrays one after the other is one run over their entries. -/
theorem foldlM_extend (a : Accumulator) {vs : List Value} (h : ∀ v ∈ vs, v.isArray = true) :
    vs.foldlM extend a = a.extendEntries (vs.flatMap Value.entries) := by
  induction vs generalizing a with
  | nil => rfl
  | cons v rest ih =>
    obtain ⟨hv, hrest⟩ := List.forall_mem_cons.mp h
    rw [List.foldlM_cons, List.flatMap_cons, extendEntries_append, extend_of_isArray a hv]
    congr 1
    funext b
    exact ih b hrest

theorem foldlM_extend_lists (a : Accumulator) (lists : List (List Value)) :
    (lists.map Value.list).foldlM extend a = .ok (lists.flatten.foldl append a) := by
  induction lists generalizing a with
  | nil => rfl
  | cons items rest ih =>
    rw [List.map_cons, List.foldlM_cons, List.flatten_cons, List.foldl_append]
    exact ih (items.foldl append a)

/-- The array with entries inserted, those at integer keys at the next indices. -/
def spread (a : Accumulator) (es : List (Key × Value)) : Accumulator :=
  a.insertAll (renumbered a.next es)

theorem spread_int (a : Accumulator) (n : Int) (v : Value) (es : List (Key × Value)) :
    a.spread ((.int n, v) :: es) = (a.append v).spread es := by
  have hnext : (a.append v).next = a.next + 1 := rfl
  unfold spread
  rw [hnext, append_eq_insert]
  rfl

theorem spread_text (a : Accumulator) (t : Text) (v : Value) (es : List (Key × Value)) :
    a.spread ((.text t, v) :: es) = (a.insert (.text t) v).spread es := rfl

theorem extendEntries_normal (a : Accumulator) (h : ∀ e ∈ es, e.1.IsNormal) :
    a.extendEntries es = .ok (a.spread es) := by
  induction es generalizing a with
  | nil => rfl
  | cons e rest ih =>
    obtain ⟨he, hrest⟩ := List.forall_mem_cons.mp h
    obtain ⟨_ | t, v⟩ := e
    · rw [spread_int]
      exact ih (a.append v) hrest
    · have hset : a.set (.text t) v = .ok (a.insert (.text t) v) := set_of_ofValue he v
      rw [extendEntries, hset, spread_text]
      exact ih (a.insert (.text t) v) hrest

/-! ## Entries inserted in order -/

theorem lookup_cons (k j : Key) (v : Value) (es : List (Key × Value)) :
    ((j, v) :: es).lookup k = if k = j then some v else es.lookup k := by
  by_cases hk : k = j
  · simp [hk]
  · simp [List.lookup_cons, hk, beq_false_of_ne hk]

theorem lookup_filter_isInt (n : Int) (es : List (Key × Value)) :
    (es.filter (·.1.isInt)).lookup (.int n) = es.lookup (.int n) := by
  induction es with
  | nil => rfl
  | cons e rest ih =>
    obtain ⟨m | t, v⟩ := e
    · show ((Key.int m, v) :: rest.filter (·.1.isInt)).lookup (.int n) = _
      rw [lookup_cons, lookup_cons, ih]
    · exact ih

theorem lookup_eq_none {k : Key} (h : k ∉ es.map (·.1)) : es.lookup k = none := by
  refine List.lookup_eq_none_iff.mpr fun e he => bne_iff_ne.mpr ?_
  intro hk
  exact h (hk ▸ List.mem_map_of_mem he)

/-- Entries are known from their keys, each there once, and the values at these. -/
theorem entries_ext (hnodup : (es.map (·.1)).Nodup) (hkeys : es.map (·.1) = fs.map (·.1))
    (h : ∀ k, es.lookup k = fs.lookup k) : es = fs := by
  induction es generalizing fs with
  | nil => exact (List.map_eq_nil_iff.mp hkeys.symm).symm
  | cons e rest ih =>
    obtain ⟨k, v⟩ := e
    obtain ⟨f, others, rfl, hf, hothers⟩ := List.map_eq_cons_iff.mp hkeys.symm
    obtain ⟨j, w⟩ := f
    have hj : j = k := hf
    subst hj
    obtain ⟨hnew, hrest⟩ := List.nodup_cons.mp hnodup
    have hvalue : v = w := by
      have hat := h j
      rw [lookup_cons, lookup_cons, if_pos rfl, if_pos rfl] at hat
      exact Option.some.inj hat
    have hall : ∀ i, rest.lookup i = others.lookup i := by
      intro i
      by_cases hi : i = j
      · rw [hi, lookup_eq_none hnew, lookup_eq_none (hothers ▸ hnew)]
      · have hat := h i
        rw [lookup_cons, lookup_cons, if_neg hi, if_neg hi] at hat
        exact hat
    rw [hvalue, ih hrest hothers.symm hall]

theorem lookup_put (k j : Key) (v : Value) (es : List (Key × Value)) :
    (put k v es).lookup j = if j = k then some v else es.lookup j := by
  induction es with
  | nil => exact lookup_cons j k v []
  | cons e rest ih =>
    obtain ⟨i, w⟩ := e
    unfold put
    by_cases hi : i = k
    · rw [if_pos hi, lookup_cons, lookup_cons, hi]
      by_cases hj : j = k <;> simp [hj]
    · rw [if_neg hi, lookup_cons, lookup_cons, ih]
      by_cases hj : j = i <;> simp [hj, hi]

/-- A key has the last value that was inserted at it. -/
theorem lookup_insertAll (a : Accumulator) (es : List (Key × Value)) (k : Key) :
    (a.insertAll es).entries.lookup k = (es.reverse.lookup k).or (a.entries.lookup k) := by
  induction es generalizing a with
  | nil => rfl
  | cons e rest ih =>
    obtain ⟨j, v⟩ := e
    have hput : (a.insert j v).entries.lookup k = if k = j then some v else a.entries.lookup k :=
      lookup_put j k v a.entries
    show ((a.insert j v).insertAll rest).entries.lookup k = _
    rw [ih, hput, List.reverse_cons, List.lookup_append, lookup_cons, Option.or_assoc]
    by_cases hk : k = j <;> simp [hk]

/-- A key that is inserted for the first time is put at the end. -/
theorem keys_insertAll (a : Accumulator) (es : List (Key × Value)) :
    (a.insertAll es).keys = a.keys ++ ((es.map (·.1)).removeAll a.keys).eraseDups := by
  induction es generalizing a with
  | nil => exact (List.append_nil _).symm
  | cons e rest ih =>
    obtain ⟨k, v⟩ := e
    have hkeys : (a.insert k v).keys = if k ∈ a.keys then a.keys else a.keys ++ [k] :=
      keys_put k v a.entries
    show ((a.insert k v).insertAll rest).keys = _
    rw [ih, hkeys, List.map_cons]
    by_cases hk : k ∈ a.keys
    · have hsame : (k :: rest.map (·.1)).removeAll a.keys = (rest.map (·.1)).removeAll a.keys := by
        simp [List.removeAll, hk]
      rw [if_pos hk, hsame]
    · -- the key goes from those still to come to those that are there
      have hnew : (k :: rest.map (·.1)).removeAll a.keys
          = k :: (rest.map (·.1)).removeAll a.keys := by
        simp [List.removeAll, hk]
      have hrest : (rest.map (·.1)).removeAll (a.keys ++ [k])
          = ((rest.map (·.1)).removeAll a.keys).filter fun j => !j == k := by
        unfold List.removeAll
        rw [List.filter_filter]
        refine List.filter_congr fun j _ => ?_
        rw [Bool.eq_iff_iff]
        simp [and_comm]
      rw [if_neg hk, hnew, hrest, List.eraseDups_cons, List.append_assoc, List.singleton_append]

/-! ## New integer keys -/

theorem countsFrom_renumbered (n : Int) (es : List (Key × Value)) :
    countsFrom n ((renumbered n es).filter (·.1.isInt)) = true := by
  induction es generalizing n with
  | nil => rfl
  | cons e rest ih =>
    obtain ⟨_ | t, v⟩ := e
    · show (Key.int n == .int n && countsFrom (n + 1) _) = true
      rw [beq_self_eq_true, Bool.true_and]
      exact ih (n + 1)
    · exact ih n

theorem values_renumbered (n : Int) (es : List (Key × Value)) :
    ((renumbered n es).filter (·.1.isInt)).map (·.2) = (es.filter (·.1.isInt)).map (·.2) := by
  induction es generalizing n with
  | nil => rfl
  | cons e rest ih =>
    obtain ⟨_ | t, v⟩ := e
    · exact congrArg (v :: ·) (ih (n + 1))
    · exact ih n

theorem normal_renumbered (n : Int) (h : ∀ e ∈ es, e.1.IsNormal) :
    ∀ e ∈ renumbered n es, e.1.IsNormal := by
  induction es generalizing n with
  | nil => exact h
  | cons e rest ih =>
    obtain ⟨he, hrest⟩ := List.forall_mem_cons.mp h
    obtain ⟨_ | t, v⟩ := e
    · exact List.forall_mem_cons.mpr ⟨Key.isNormal_int n, ih (n + 1) hrest⟩
    · exact List.forall_mem_cons.mpr ⟨he, ih n hrest⟩

/-- Entries at integer keys that count up already stay as they are. -/
theorem renumbered_of_countsFrom {n : Int} (h : countsFrom n (es.filter (·.1.isInt)) = true) :
    renumbered n es = es := by
  induction es generalizing n with
  | nil => rfl
  | cons e rest ih =>
    obtain ⟨m | t, v⟩ := e
    · have h : (Key.int m == .int n && countsFrom (n + 1) (rest.filter (·.1.isInt))) = true := h
      rw [Bool.and_eq_true, beq_iff_eq] at h
      rw [renumbered, ih h.2, h.1]
    · exact congrArg ((.text t, v) :: ·) (ih h)

/-- Texts and their values stay as they are. -/
theorem lookup_renumbered (n : Int) (es : List (Key × Value)) (t : Text) :
    (renumbered n es).reverse.lookup (.text t) = es.reverse.lookup (.text t) := by
  induction es generalizing n with
  | nil => rfl
  | cons e rest ih =>
    obtain ⟨_ | u, v⟩ := e
    · rw [renumbered, List.reverse_cons, List.reverse_cons, List.lookup_append,
        List.lookup_append, ih]
      rfl
    · rw [renumbered, List.reverse_cons, List.reverse_cons, List.lookup_append,
        List.lookup_append, ih]

theorem entries_list_of_countsFrom (h : countsFrom 0 es = true) :
    (Value.list (es.map (·.2))).entries = es := by
  have hentries := entries_valueOf es
  rw [valueOf, if_pos h] at hentries
  exact hentries

theorem filter_put_text (t : Text) (v : Value) (es : List (Key × Value)) :
    (put (.text t) v es).filter (·.1.isInt) = es.filter (·.1.isInt) := by
  induction es with
  | nil => rfl
  | cons e rest ih =>
    obtain ⟨k, w⟩ := e
    unfold put
    by_cases hk : k = .text t
    · rw [if_pos hk, hk]
      rfl
    · rw [if_neg hk, List.filter_cons, List.filter_cons, ih]

/-- The new integer keys are beyond all that are there, so each element gets a place of its own. -/
theorem Sound.filter_spread (ha : a.Sound) (es : List (Key × Value)) :
    (a.spread es).entries.filter (·.1.isInt)
      = a.entries.filter (·.1.isInt) ++ (renumbered a.next es).filter (·.1.isInt) := by
  induction es generalizing a with
  | nil => exact (List.append_nil _).symm
  | cons e rest ih =>
    obtain ⟨m | t, v⟩ := e
    · -- no key reaches the next index, so nothing is overwritten there
      have hnew : .int a.next ∉ a.keys := fun h => Int.lt_irrefl _ (ha.below _ h)
      have hentries : (a.append v).entries = a.entries ++ [(.int a.next, v)] := put_of_not_mem hnew
      have hsound : (a.append v).Sound := append_eq_insert a v ▸ ha.insert _ v
      rw [spread_int, ih hsound, hentries, List.filter_append, List.append_assoc]
      rfl
    · rw [spread_text, ih (ha.insert _ v)]
      exact congrArg (· ++ _) (filter_put_text t v a.entries)

end Accumulator

namespace Value

/-- What arrays with these entries, one after the other, are as one array. -/
structure IsSpread (es : List (Key × Value)) (v : Value) : Prop where
  producible : v.IsProducible
  /-- The elements at integer keys are all there, in their order, at `0, 1, 2, …`. -/
  numbered : v.entries.filter (·.1.isInt)
    = (Value.list ((es.filter (·.1.isInt)).map (·.2))).entries
  /-- Each key stands where it comes first. -/
  places : v.entries.map (·.1) = ((Accumulator.renumbered 0 es).map (·.1)).eraseDups
  /-- A text has the value that comes last. -/
  last : ∀ t, v.entries.lookup (.text t) = es.reverse.lookup (.text t)

/-- There is one such array at most. -/
theorem IsSpread.unique {es : List (Key × Value)} {u v : Value} (hu : u.IsSpread es)
    (hv : v.IsSpread es) : u = v := by
  refine hu.producible.eq_of_entries hv.producible ?_
  refine Accumulator.entries_ext hu.producible.keys_nodup (hu.places.trans hv.places.symm) ?_
  intro k
  -- what is at an integer is among the numbered entries, and what is at a text comes last there
  cases k with
  | int n =>
    rw [← Accumulator.lookup_filter_isInt, hu.numbered, ← hv.numbered,
      Accumulator.lookup_filter_isInt]
  | text t => rw [hu.last, hv.last]

end Value

namespace Accumulator

theorem isSpread_spread {es : List (Key × Value)} (h : ∀ e ∈ es, e.1.IsNormal) :
    (empty.spread es).value.IsSpread es := by
  have hproducible : (empty.spread es).Producible :=
    Producible.empty.insertAll (normal_renumbered _ h)
  constructor
  case producible => exact ⟨_, hproducible, rfl⟩
  case numbered =>
    rw [entries_value, sound_empty.filter_spread, ← values_renumbered 0 es]
    exact (entries_list_of_countsFrom (countsFrom_renumbered 0 es)).symm
  case places =>
    rw [entries_value]
    have hkeys := keys_insertAll empty (renumbered 0 es)
    have hall : ((renumbered 0 es).map (·.1)).removeAll empty.keys
        = (renumbered 0 es).map (·.1) := List.removeAll_nil
    rw [hall] at hkeys
    exact hkeys
  case last =>
    intro t
    rw [entries_value]
    unfold spread
    rw [lookup_insertAll, lookup_renumbered]
    exact Option.or_none

/-- An array whose elements at integer keys are numbered already gives itself. -/
theorem spread_entries {es : List (Key × Value)} {v : Value} (h : v.IsSpread es) :
    (empty.spread v.entries).value = v := by
  have hnumbered : renumbered 0 v.entries = v.entries := by
    apply renumbered_of_countsFrom
    rw [h.numbered]
    exact countsFrom_entries _
  have hentries : (empty.spread v.entries).entries = v.entries := by
    show (empty.insertAll (renumbered 0 v.entries)).entries = v.entries
    rw [hnumbered]
    exact entries_insertAll (a := empty) h.producible.keys_nodup
  unfold value
  rw [hentries, h.producible.valueOf_entries]

/-- Arrays that are unpacked one after the other into the empty one give the one array with their
elements at integer keys in order, numbered anew, and with each text once, where it comes first and
with the value that comes last. Lists give their concatenation, and the array unpacked alone gives
itself. -/
theorem extend_each {vs : List Value} (h : ∀ v ∈ vs, v.IsProducible) :
    ∃ a, vs.foldlM extend empty = .ok a
      ∧ (∀ v, v.IsSpread (vs.flatMap Value.entries) ↔ v = a.value)
      ∧ (∀ lists : List (List Value), vs = lists.map .list → a.value = .list lists.flatten)
      ∧ ∃ b, empty.extend a.value = .ok b ∧ b.value = a.value := by
  have hnormal : ∀ e ∈ vs.flatMap Value.entries, e.1.IsNormal := by
    intro e he
    obtain ⟨v, hv, hev⟩ := List.mem_flatMap.mp he
    exact (h v hv).normal e hev
  have hrun : vs.foldlM extend empty = .ok (empty.spread (vs.flatMap Value.entries)) := by
    rw [foldlM_extend empty fun v hv => (h v hv).isArray]
    exact extendEntries_normal empty hnormal
  have hspread := isSpread_spread hnormal
  refine ⟨empty.spread (vs.flatMap Value.entries), hrun, ?_, ?_, ?_⟩
  · intro v
    constructor
    · exact fun hv => hv.unique hspread
    · intro hv
      rw [hv]
      exact hspread
  · intro lists hlists
    rw [hlists] at hrun ⊢
    rw [foldlM_extend_lists, Except.ok.injEq] at hrun
    rw [← hrun, value_foldl_append]
  · refine ⟨empty.spread (empty.spread (vs.flatMap Value.entries)).value.entries, ?_, ?_⟩
    · rw [extend_of_isArray empty hspread.producible.isArray]
      exact extendEntries_normal empty hspread.producible.normal
    · exact spread_entries hspread

/-- A list between two maps that have a text in common. -/
def overlapping : List Value :=
  [.map [(.text (Text.ofString "a"), .int 1), (.int 5, .null)], .list [.bool true],
    .map [(.int 9, .int 2), (.text (Text.ofString "a"), .int 3)]]

/-- The text stays in front and has the value from the second map. -/
theorem extend_each_overlapping :
    (∀ v ∈ overlapping, v.IsProducible)
      ∧ ∃ a, overlapping.foldlM extend empty = .ok a
        ∧ (∀ v, v.IsSpread (overlapping.flatMap Value.entries) ↔ v = a.value)
        ∧ a.value = .map [(.text (Text.ofString "a"), .int 3), (.int 0, .null),
          (.int 1, .bool true), (.int 2, .int 2)]
        ∧ ∃ b, empty.extend a.value = .ok b ∧ b.value = a.value := by
  have hmaps : ∀ v ∈ overlapping, v.IsProducible := by
    unfold overlapping
    simp only [List.forall_mem_cons, List.not_mem_nil, false_implies, implies_true, and_true]
    refine ⟨?_, Value.isProducible_list _, ?_⟩
    · refine Value.isProducible_iff.mpr ⟨rfl, by decide, ?_⟩
      exact List.forall_mem_cons.mpr ⟨rfl, List.forall_mem_singleton.mpr rfl⟩
    · refine Value.isProducible_iff.mpr ⟨rfl, by decide, ?_⟩
      exact List.forall_mem_cons.mpr ⟨rfl, List.forall_mem_singleton.mpr rfl⟩
  obtain ⟨a, hrun, hspread, -, hagain⟩ := extend_each hmaps
  refine ⟨hmaps, a, hrun, hspread, ?_, hagain⟩
  have heval : overlapping.foldlM extend empty = .ok ⟨[(.text (Text.ofString "a"), .int 3),
      (.int 0, .null), (.int 1, .bool true), (.int 2, .int 2)], 3⟩ := rfl
  rw [hrun, Except.ok.injEq] at heval
  rw [heval]
  rfl

end Accumulator

end StaticReflection
