import StaticReflection.Proofs.Value.Built

/-!
# Arrays under construction

An array is built by steps (`Accumulator.Step`), and a step that fails may leave an array with some
elements added (`Accumulator.addEntries`). With maps that are arrays themselves it never does
(`Accumulator.run_eq_of_error`): such a map has only keys that can be keys again. So whatever the
steps were, and whichever of them failed, the array is one that elements were added to, and all
that holds of these holds of it:

> `Accumulator.afterSteps_ordered`: after any steps from the empty array on, the next index is one
> above the greatest integer key, an element without a key is a new last one, a key that is there
> keeps its place, a step that fails changes nothing, and the value has the entries in their order.
-/

namespace StaticReflection

namespace Key

/-- The integer that a key is, if it is one. -/
def int? : Key → Option Int
  | .int n => some n
  | .text _ => none

end Key

namespace Accumulator

/-! ## Adding the elements of a map -/

/-- Adding the elements of a map succeeds as unpacking it does, with the same array. -/
theorem extendEntries_eq (a : Accumulator) (entries : List (Key × Value)) :
    a.extendEntries entries = (a.addEntries entries).1.map fun _ => (a.addEntries entries).2 := by
  induction entries generalizing a with
  | nil => rfl
  | cons e rest ih =>
    obtain ⟨_ | t, v⟩ := e
    · exact ih (a.append v)
    · rw [extendEntries, addEntries]
      cases a.set (.text t) v with
      | ok b => exact ih b
      | error f => rfl

/-- A step of unpacking succeeds as unpacking does, with the same array. -/
theorem extend_eq (a : Accumulator) (v : Value) :
    a.extend v = (a.run (.extend v)).1.map fun _ => (a.run (.extend v)).2 := by
  cases v with
  | map entries => exact extendEntries_eq a entries
  | _ => rfl

/-- All elements of a map are added if its keys can be keys again. -/
theorem addEntries_normal (a : Accumulator) {entries : List (Key × Value)}
    (h : ∀ e ∈ entries, e.1.IsNormal) : (a.addEntries entries).1 = .ok () := by
  induction entries generalizing a with
  | nil => rfl
  | cons e rest ih =>
    have hrest : ∀ d ∈ rest, d.1.IsNormal := fun d hd => h d (List.mem_cons_of_mem _ hd)
    obtain ⟨_ | t, v⟩ := e
    · exact ih (a.append v) hrest
    · have hkey : Key.ofValue (.text t) = .ok (.text t) := h _ (List.mem_cons_self ..)
      rw [addEntries, set_of_ofValue hkey]
      exact ih _ hrest

/-! ## Steps -/

/-- A step is given any keys and values, but maps only as they are built. -/
def Step.IsGiven : Step → Prop
  | .extend (.map entries) => ∃ b : Accumulator, b.Producible ∧ b.value = .map entries
  | _ => True

/-- The array after some steps, of which each goes on with what the one before it left. -/
def afterSteps (a : Accumulator) (steps : List Step) : Accumulator :=
  steps.foldl (fun a s => (a.run s).2) a

theorem entries_of_value_eq_map {a : Accumulator} {entries : List (Key × Value)}
    (h : a.value = .map entries) : a.entries = entries := by
  unfold value valueOf at h
  split at h
  · cases h
  · exact Value.map.inj h

/-- A step that fails leaves the array as it was. -/
theorem run_eq_of_error {a : Accumulator} {s : Step} (hgiven : s.IsGiven) {f : Failure}
    (h : (a.run s).1 = .error f) : (a.run s).2 = a := by
  cases s with
  | append v => cases h
  | set key v =>
    rw [run] at h ⊢
    cases hset : a.set key v with
    | ok b => rw [hset] at h; cases h
    | error f => rfl
  | extend v =>
    cases v with
    | list items => cases h
    | map entries =>
      -- the keys of a map that was built can all be keys again
      obtain ⟨b, hb, hvalue⟩ := hgiven
      have hnormal := hb.normal
      rw [entries_of_value_eq_map hvalue] at hnormal
      have hok : (a.run (.extend (.map entries))).1 = .ok () := a.addEntries_normal hnormal
      rw [hok] at h
      cases h
    | _ => rfl

/-- A step leaves an array that elements were added to. -/
theorem Producible.run {a : Accumulator} (h : a.Producible) {s : Step} (hgiven : s.IsGiven) :
    (a.run s).2.Producible := by
  cases hrun : (a.run s).1 with
  | error f =>
    rw [run_eq_of_error hgiven hrun]
    exact h
  | ok u =>
    cases s with
    | append v => exact .append h v
    | set key v =>
      rw [Accumulator.run] at hrun ⊢
      cases hset : a.set key v with
      | ok b => exact .set h hset
      | error f => rw [hset] at hrun; cases hrun
    | extend v =>
      have hadd : a.extend v = .ok (a.run (.extend v)).2 := by
        rw [extend_eq, hrun]
        rfl
      exact .extend h hadd

/-- After any steps an array is one that elements were added to, so that its value can be given
to a step. -/
theorem Producible.afterSteps {a : Accumulator} (h : a.Producible) {steps : List Step}
    (hgiven : ∀ s ∈ steps, s.IsGiven) : (a.afterSteps steps).Producible := by
  induction steps generalizing a with
  | nil => exact h
  | cons s rest ih =>
    exact ih (h.run (hgiven s (List.mem_cons_self ..))) fun t ht =>
      hgiven t (List.mem_cons_of_mem _ ht)

/-! ## The next index -/

/-- One more than the greatest integer among some keys, or zero if that is less. -/
def indexAfter (keys : List Key) : Int := ((keys.filterMap Key.int?).map (· + 1)).foldr max 0

theorem indexAfter_nonneg (keys : List Key) : 0 ≤ indexAfter keys := by
  unfold indexAfter
  induction (keys.filterMap Key.int?).map (· + 1) with
  | nil => exact Int.le_refl 0
  | cons n rest ih => exact Int.le_trans ih (Int.le_max_right n _)

theorem lt_indexAfter {keys : List Key} {n : Int} (h : .int n ∈ keys) : n < indexAfter keys := by
  have hmem : n + 1 ∈ (keys.filterMap Key.int?).map (· + 1) :=
    List.mem_map.mpr ⟨n, List.mem_filterMap.mpr ⟨_, h, rfl⟩, rfl⟩
  unfold indexAfter
  generalize (keys.filterMap Key.int?).map (· + 1) = bounds at hmem ⊢
  induction bounds with
  | nil => cases hmem
  | cons m rest ih =>
    rw [List.foldr_cons]
    rcases List.mem_cons.mp hmem with rfl | hmem
    · omega
    · have := ih hmem
      omega

theorem indexAfter_le {keys : List Key} {m : Int} (hm : 0 ≤ m)
    (h : ∀ n, .int n ∈ keys → n < m) : indexAfter keys ≤ m := by
  have hall : ∀ n ∈ (keys.filterMap Key.int?).map (· + 1), n ≤ m := by
    intro n hn
    obtain ⟨k, hk, rfl⟩ := List.mem_map.mp hn
    obtain ⟨key, hkey, hint⟩ := List.mem_filterMap.mp hk
    cases key with
    | int k' => cases hint; exact h _ hkey
    | text t => cases hint
  unfold indexAfter
  generalize (keys.filterMap Key.int?).map (· + 1) = bounds at hall ⊢
  induction bounds with
  | nil => exact hm
  | cons n rest ih =>
    obtain ⟨hn, hrest⟩ := List.forall_mem_cons.mp hall
    exact Int.max_le.mpr ⟨hn, ih hrest⟩

/-- The next index of a sound array is the one after its keys. -/
theorem Sound.next_eq {a : Accumulator} (h : a.Sound) : a.next = indexAfter a.keys := by
  refine Int.le_antisymm ?_ (indexAfter_le h.nonneg h.below)
  rcases h.reached with hzero | hlast
  · rw [hzero]
    exact indexAfter_nonneg _
  · have := lt_indexAfter hlast
    omega

/-! ## Entries -/

/-- An entry with a key that is there takes the place of the one with that key. -/
theorem put_of_mem {k : Key} {v : Value} {es : List (Key × Value)} (hnodup : (es.map (·.1)).Nodup)
    (h : k ∈ es.map (·.1)) : put k v es = es.map fun e => if e.1 = k then (k, v) else e := by
  induction es with
  | nil => cases h
  | cons e rest ih =>
    obtain ⟨j, w⟩ := e
    obtain ⟨hnew, hrest⟩ := List.nodup_cons.mp hnodup
    rw [put, List.map_cons]
    by_cases hj : j = k
    · -- no entry after it has the key
      have hsame : rest.map (fun e => if e.1 = k then (k, v) else e) = rest := by
        refine (List.map_congr_left fun e he => if_neg fun hk => hnew ?_).trans (List.map_id rest)
        exact List.mem_map.mpr ⟨e, he, hk.trans hj.symm⟩
      rw [if_pos hj, if_pos hj, hsame, hj]
    · rw [if_neg hj, if_neg hj, ih hrest ((List.mem_cons.mp h).resolve_left (Ne.symm hj))]

theorem countsFrom_iff (n : Int) (es : List (Key × Value)) :
    countsFrom n es = true
      ↔ es.map (·.1) = (List.range es.length).map fun i : Nat => Key.int (n + i) := by
  induction es generalizing n with
  | nil => exact ⟨fun _ => rfl, fun _ => rfl⟩
  | cons e rest ih =>
    obtain ⟨k, v⟩ := e
    have hshift : (fun i : Nat => Key.int (n + i)) ∘ Nat.succ
        = fun i : Nat => .int (n + 1 + i) := by
      funext i
      show Key.int (n + (i + 1 : Nat)) = _
      rw [Int.natCast_add, Int.add_comm i, ← Int.add_assoc]
      rfl
    rw [countsFrom, Bool.and_eq_true, beq_iff_eq, ih, List.length_cons, List.range_succ_eq_map,
      List.map_cons, List.map_cons, List.map_map, hshift, List.cons.injEq, Int.natCast_zero,
      Int.add_zero]

/-- The value of an array has the entries of the array, in their order. -/
theorem entries_value (a : Accumulator) : a.value.entries = a.entries := by
  unfold value valueOf
  split
  next h =>
    refine List.ext_getElem (by simp [Value.entries]) fun i hi hi' => ?_
    have hkey := key_of_countsFrom h hi'
    rw [Int.zero_add] at hkey
    have hitem : (Value.list (a.entries.map (·.2))).entries[i] = (Key.int i, a.entries[i].2) := by
      simp [Value.entries]
    rw [hitem, ← hkey]
  next => rfl

/-- The value of an array is a list exactly if its keys count up from zero. -/
theorem value_list_iff (a : Accumulator) :
    (∃ items, a.value = .list items)
      ↔ a.keys = (List.range a.entries.length).map fun i : Nat => Key.int i := by
  have hcounts := countsFrom_iff 0 a.entries
  simp only [Int.zero_add] at hcounts
  refine Iff.trans ?_ hcounts
  unfold value valueOf
  split
  next h => exact ⟨fun _ => h, fun _ => ⟨_, rfl⟩⟩
  next h => exact ⟨fun ⟨_, he⟩ => (by cases he), fun he => (h he).elim⟩

/-! ## What holds after any steps -/

/-- How an array under construction answers: it is an ordered map with an index for the next
element without a key. -/
structure IsOrdered (a : Accumulator) : Prop where
  /-- No key is there twice. -/
  nodup : a.keys.Nodup
  /-- The next index is one above the greatest integer key. -/
  next_eq : a.next = indexAfter a.keys
  /-- An element without a key is a new last one. -/
  appends : ∀ v, a.run (.append v) = (.ok (), a.append v)
    ∧ (a.append v).entries = a.entries ++ [(.int a.next, v)] ∧ .int a.next ∉ a.keys
  /-- An element at a new key is a new last one. -/
  adds : ∀ key k v, Key.ofValue key = .ok k → k ∉ a.keys →
    (a.run (.set key v)).1 = .ok () ∧ (a.run (.set key v)).2.entries = a.entries ++ [(k, v)]
  /-- An element at a key that is there takes the place of the one there. -/
  replaces : ∀ key k v, Key.ofValue key = .ok k → k ∈ a.keys →
    (a.run (.set key v)).1 = .ok () ∧ (a.run (.set key v)).2.next = a.next
      ∧ (a.run (.set key v)).2.entries = a.entries.map fun e => if e.1 = k then (k, v) else e
  /-- A step that fails changes nothing. -/
  fails : ∀ s, s.IsGiven → ∀ f, (a.run s).1 = .error f → (a.run s).2 = a
  /-- The value has the entries in their order. -/
  value_entries : a.value.entries = a.entries
  /-- The value is a list exactly if the keys count up from zero. -/
  value_list : (∃ items, a.value = .list items)
    ↔ a.keys = (List.range a.entries.length).map fun i : Nat => Key.int i

theorem run_set {a : Accumulator} {key : Value} {k : Key} (h : Key.ofValue key = .ok k)
    (v : Value) : a.run (.set key v) = (.ok (), a.insert k v) := by
  rw [run, set_of_ofValue h]

/-- A key that is there does not move the next index. -/
theorem Sound.nextAfter_of_mem {a : Accumulator} (h : a.Sound) {k : Key} (hk : k ∈ a.keys) :
    nextAfter a.next k = a.next := by
  cases k with
  | text t => rfl
  | int n => exact if_neg (Int.not_le.mpr (h.below n hk))

/-- An array that elements were added to is an ordered map. -/
theorem Producible.isOrdered {a : Accumulator} (h : a.Producible) : a.IsOrdered := by
  have hsound : a.Sound := h.grows.sound sound_empty
  have hnew : .int a.next ∉ a.keys := fun hmem => Int.lt_irrefl _ (hsound.below _ hmem)
  constructor
  case nodup => exact h.keys_nodup
  case next_eq => exact hsound.next_eq
  case appends => exact fun v => ⟨rfl, put_of_not_mem hnew, hnew⟩
  case adds =>
    intro key k v hkey hk
    rw [run_set hkey]
    exact ⟨rfl, put_of_not_mem hk⟩
  case replaces =>
    intro key k v hkey hk
    rw [run_set hkey]
    exact ⟨rfl, hsound.nextAfter_of_mem hk, put_of_mem h.keys_nodup hk⟩
  case fails => exact fun s hs f hf => run_eq_of_error hs hf
  case value_entries => exact a.entries_value
  case value_list => exact a.value_list_iff

/-- After any steps from the empty array on, of which some may have failed, an array is an
ordered map, and its value can be given to a step. -/
theorem afterSteps_ordered (steps : List Step) (h : ∀ s ∈ steps, s.IsGiven) :
    (empty.afterSteps steps).IsOrdered
      ∧ ∀ entries, (empty.afterSteps steps).value = .map entries →
        (Step.extend (.map entries)).IsGiven := by
  have hbuilt : (empty.afterSteps steps).Producible := Producible.empty.afterSteps h
  exact ⟨hbuilt.isOrdered, fun entries hvalue => ⟨_, hbuilt, hvalue⟩⟩

/-- Steps with keys of several kinds, a map that is unpacked, and two steps that fail: a list is no
key, and a truth value cannot be unpacked. -/
def mixedSteps : List Step :=
  [.append .null, .set (Value.ofString "-2") .null, .set (.list []) .null,
    .extend (.map [(.text (Text.ofString "a"), .null)]), .extend (.bool true),
    .set (.bool true) .null, .set (Value.ofString "7") .null, .append (.int 1)]

theorem afterSteps_ordered_mixed :
    (∀ s ∈ mixedSteps, s.IsGiven) ∧ (empty.afterSteps mixedSteps).IsOrdered
      ∧ (empty.afterSteps mixedSteps).keys
        = [.int 0, .int (-2), .text (Text.ofString "a"), .int 1, .int 7, .int 8]
      ∧ (empty.afterSteps mixedSteps).next = 9 := by
  have hmap : (Step.extend (.map [(.text (Text.ofString "a"), .null)])).IsGiven := by
    have hset : empty.set (Value.ofString "a") .null
        = .ok ⟨[(.text (Text.ofString "a"), .null)], 0⟩ := rfl
    exact ⟨_, .set .empty hset, rfl⟩
  have hgiven : ∀ s ∈ mixedSteps, s.IsGiven := by
    unfold mixedSteps
    simp only [List.forall_mem_cons, List.not_mem_nil, false_implies, implies_true, and_true]
    exact ⟨trivial, trivial, trivial, hmap, trivial, trivial, trivial, trivial⟩
  have hkeys : (empty.afterSteps mixedSteps).keys
      = [.int 0, .int (-2), .text (Text.ofString "a"), .int 1, .int 7, .int 8] := by
    decide +kernel
  have hordered := (afterSteps_ordered mixedSteps hgiven).1
  refine ⟨hgiven, hordered, hkeys, ?_⟩
  rw [hordered.next_eq, hkeys]
  decide

end Accumulator

end StaticReflection
