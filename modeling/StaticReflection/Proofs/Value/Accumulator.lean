import StaticReflection.Value.Operator

/-!
# How arrays grow

Whatever adds elements to an array under construction inserts entries one by one:
`Accumulator.Grows P` is that growth, with `P` for every entry that is inserted. Keys are
never taken out again (`Grows.keys_subset`), and the next index stays one above the
greatest integer key, or zero (`Accumulator.Sound`).
-/

namespace StaticReflection.Accumulator

/-- The keys that are present. -/
def keys (a : Accumulator) : List Key := a.entries.map (·.1)

theorem mem_put {k : Key} {v : Value} {es : List (Key × Value)} {e : Key × Value}
    (h : e ∈ put k v es) : e = (k, v) ∨ e ∈ es := by
  induction es with
  | nil => exact .inl (List.mem_singleton.mp h)
  | cons d rest ih =>
    obtain ⟨j, w⟩ := d
    unfold put at h
    split at h
    next hj =>
      rcases List.mem_cons.mp h with rfl | h
      · exact .inl (by rw [hj])
      · exact .inr (List.mem_cons_of_mem _ h)
    next =>
      rcases List.mem_cons.mp h with rfl | h
      · exact .inr (List.mem_cons_self ..)
      · exact (ih h).imp id (List.mem_cons_of_mem _)

theorem mem_keys_put {k j : Key} {v : Value} {es : List (Key × Value)} :
    j ∈ (put k v es).map (·.1) ↔ j = k ∨ j ∈ es.map (·.1) := by
  induction es with
  | nil => exact List.mem_singleton.trans (or_iff_left (List.not_mem_nil)).symm
  | cons d rest ih =>
    obtain ⟨i, w⟩ := d
    unfold put
    split
    next hi =>
      simp only [List.map_cons, List.mem_cons, hi]
      exact ⟨.inr, fun h => h.elim .inl id⟩
    next =>
      simp only [List.map_cons, List.mem_cons, ih]
      exact or_left_comm

theorem mem_keys_insert {a : Accumulator} {k j : Key} {v : Value} :
    j ∈ (a.insert k v).keys ↔ j = k ∨ j ∈ a.keys := mem_keys_put

/-- An element at the next index is one inserted at that key. -/
theorem append_eq_insert (a : Accumulator) (v : Value) :
    a.append v = a.insert (.int a.next) v := by
  have hnext : nextAfter a.next (.int a.next) = a.next + 1 := if_pos (Int.le_refl _)
  unfold append insert
  rw [hnext]

theorem key_of_countsFrom {es : List (Key × Value)} {n : Int} (h : countsFrom n es = true)
    {i : Nat} (hi : i < es.length) : es[i].1 = .int (n + i) := by
  induction es generalizing n i with
  | nil => cases hi
  | cons e rest ih =>
    obtain ⟨k, v⟩ := e
    simp only [countsFrom, Bool.and_eq_true, beq_iff_eq] at h
    cases i with
    | zero => simpa using h.1
    | succ i =>
      rw [List.getElem_cons_succ, ih h.2 (Nat.lt_of_succ_lt_succ hi)]
      congr 1
      omega

/-! ## Growth -/

/-- An array grows to another by inserting entries of some sort. -/
inductive Grows (P : Key → Value → Prop) : Accumulator → Accumulator → Prop
  | refl {a : Accumulator} : Grows P a a
  | insert {a b : Accumulator} {k : Key} {v : Value} (h : Grows P a b) (hp : P k v) :
      Grows P a (b.insert k v)

/-- The next index is one above the greatest integer key, or zero if none is natural. -/
structure Sound (a : Accumulator) : Prop where
  nonneg : 0 ≤ a.next
  below : ∀ n, .int n ∈ a.keys → n < a.next
  reached : a.next = 0 ∨ .int (a.next - 1) ∈ a.keys

theorem sound_empty : Sound empty := ⟨Int.le_refl 0, fun _ h => (by cases h), .inl rfl⟩

theorem Sound.insert {a : Accumulator} (h : a.Sound) (k : Key) (v : Value) :
    (a.insert k v).Sound := by
  cases k with
  | text t =>
    refine ⟨h.nonneg, fun n hn => ?_, h.reached.imp id fun hr => mem_keys_insert.mpr (.inr hr)⟩
    rcases mem_keys_insert.mp hn with hn | hn
    · cases hn
    · exact h.below n hn
  | int m =>
    have hnonneg := h.nonneg
    have hnext : (a.insert (.int m) v).next = if a.next ≤ m then m + 1 else a.next := rfl
    -- the next index moves only if the new key is at it or beyond it
    refine ⟨by rw [hnext]; split <;> omega, fun n hn => ?_, ?_⟩
    · rw [hnext]
      rcases mem_keys_insert.mp hn with hn | hn
      · cases hn
        split <;> omega
      · have := h.below n hn
        split <;> omega
    · rw [hnext]
      split
      next => exact .inr (mem_keys_insert.mpr (.inl (by rw [Int.add_sub_cancel])))
      next => exact h.reached.imp id fun hr => mem_keys_insert.mpr (.inr hr)

namespace Grows

variable {P Q : Key → Value → Prop} {a b c : Accumulator}

theorem trans (h : Grows P a b) (h' : Grows P b c) : Grows P a c := by
  induction h' with
  | refl => exact h
  | insert _ hp ih => exact .insert ih hp

theorem sound (h : Grows P a b) (ha : a.Sound) : b.Sound := by
  induction h with
  | refl => exact ha
  | insert _ _ ih => exact ih.insert _ _

theorem keys_subset (h : Grows P a b) : ∀ k ∈ a.keys, k ∈ b.keys := by
  induction h with
  | refl => exact fun _ hk => hk
  | insert _ _ ih => exact fun k hk => mem_keys_insert.mpr (.inr (ih k hk))

/-- What holds of the entries and of every one that is inserted holds of all. -/
theorem forall_entries (h : Grows P a b) (ha : ∀ e ∈ a.entries, P e.1 e.2) :
    ∀ e ∈ b.entries, P e.1 e.2 := by
  induction h with
  | refl => exact ha
  | insert _ hp ih =>
    intro e he
    rcases mem_put he with rfl | he
    · exact hp
    · exact ih e he

end Grows

/-! ## What adds elements -/

section

variable {P : Key → Value → Prop} {a b : Accumulator}

theorem grows_append (ha : a.Sound) {v : Value} (h : ∀ n, 0 ≤ n → P (.int n) v) :
    Grows P a (a.append v) := by
  rw [append_eq_insert]
  exact .insert .refl (h a.next ha.nonneg)

theorem set_eq_ok {key v : Value} (h : a.set key v = .ok b) :
    ∃ k, Key.ofValue key = .ok k ∧ b = a.insert k v := by
  unfold set at h
  cases hk : Key.ofValue key with
  | ok k => rw [hk] at h; cases h; exact ⟨k, rfl, rfl⟩
  | error f => rw [hk] at h; cases h

theorem set_of_ofValue {key : Value} {k : Key} (h : Key.ofValue key = .ok k) (v : Value) :
    a.set key v = .ok (a.insert k v) := by
  unfold set
  rw [h]
  rfl

theorem grows_set {key v : Value} (hset : a.set key v = .ok b)
    (h : ∀ k, Key.ofValue key = .ok k → P k v) : Grows P a b := by
  obtain ⟨k, hk, rfl⟩ := set_eq_ok hset
  exact .insert .refl (h k hk)

theorem grows_foldl_append (ha : a.Sound) {items : List Value}
    (h : ∀ v ∈ items, ∀ n, 0 ≤ n → P (.int n) v) : Grows P a (items.foldl append a) := by
  induction items generalizing a with
  | nil => exact .refl
  | cons v rest ih =>
    have hv := grows_append ha (h v (List.mem_cons_self ..))
    exact hv.trans (ih (hv.sound ha) fun w hw => h w (List.mem_cons_of_mem _ hw))

theorem grows_extendEntries (ha : a.Sound) {entries : List (Key × Value)}
    (hadd : a.extendEntries entries = .ok b)
    (hint : ∀ e ∈ entries, ∀ n, 0 ≤ n → P (.int n) e.2)
    (htext : ∀ e ∈ entries, ∀ t k, Key.ofText t = .ok k → P k e.2) : Grows P a b := by
  induction entries generalizing a with
  | nil => cases hadd; exact .refl
  | cons e rest ih =>
    have hrest {a' : Accumulator} (hg : Grows P a a') (h : a'.extendEntries rest = .ok b) :
        Grows P a b :=
      hg.trans (ih (hg.sound ha) h (fun d hd => hint d (List.mem_cons_of_mem _ hd))
        fun d hd => htext d (List.mem_cons_of_mem _ hd))
    obtain ⟨k, v⟩ := e
    cases k with
    | int n => exact hrest (grows_append ha (hint _ (List.mem_cons_self ..))) hadd
    | text t =>
      rw [extendEntries] at hadd
      cases hset : a.set (.text t) v with
      | error f => rw [hset] at hadd; cases hadd
      | ok a' =>
        rw [hset] at hadd
        exact hrest (grows_set hset fun k hk => htext _ (List.mem_cons_self ..) t k hk) hadd

/-- Unpacking an array inserts its values at natural numbers and at the keys of texts. -/
theorem grows_extend (ha : a.Sound) {v : Value} (hadd : a.extend v = .ok b)
    (hint : ∀ e ∈ v.entries, ∀ n, 0 ≤ n → P (.int n) e.2)
    (htext : ∀ e ∈ v.entries, ∀ t k, Key.ofText t = .ok k → P k e.2) : Grows P a b := by
  cases v with
  | list items =>
    cases hadd
    refine grows_foldl_append ha fun w hw => ?_
    obtain ⟨i, hi, rfl⟩ := List.getElem_of_mem hw
    exact hint (.int i, items[i]) (List.mem_mapIdx.mpr ⟨i, hi, rfl⟩)
  | map entries => exact grows_extendEntries ha hadd hint htext
  | _ => cases hadd

end

end StaticReflection.Accumulator
