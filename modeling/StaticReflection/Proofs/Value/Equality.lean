import Mathlib.Data.List.Nodup
import Mathlib.Data.List.Perm.Subperm
import StaticReflection.Proofs.Value.Built

/-!
# Equality of values without doubles

Equality of two values goes by what they count as: a truth value equals the integer that it is in
arithmetic, and maps are equal whatever the order of their entries. That holds inside arrays as it
does outside. `Value.Alike` is this relation, and `Value.Exact` are the values without doubles, of
whose maps each has a key once.

> `Value.eq_iff`: exact values are equal exactly if they are alike.

So equality of exact values is an equivalence (`Value.Exact.alike`, `Value.Alike.symm`,
`Value.Alike.trans`). Arrays that elements were added to are exact if their elements are
(`Value.Exact.array`), and so all values are that are built without doubles (`Value.Built.exact`).
-/

namespace StaticReflection.Value

/-- A value in which no double occurs, and no key of a map twice. -/
inductive Exact : Value → Prop
  | null : Exact .null
  | bool (b : Bool) : Exact (.bool b)
  | int (n : Int) : Exact (.int n)
  | text (t : Text) : Exact (.text t)
  | list {items : List Value} (h : ∀ v ∈ items, Exact v) : Exact (.list items)
  | map {entries : List (Key × Value)} (hkeys : (entries.map (·.1)).Nodup)
    (h : ∀ e ∈ entries, Exact e.2) : Exact (.map entries)

/-- An array that exact values were added to is exact. -/
theorem Exact.array {a : Accumulator} (h : a.Producible) (hvalues : ∀ e ∈ a.entries, e.2.Exact) :
    a.value.Exact := by
  unfold Accumulator.value Accumulator.valueOf
  split
  · refine .list fun v hv => ?_
    obtain ⟨e, he, rfl⟩ := List.mem_map.mp hv
    exact hvalues e he
  · exact .map h.keys_nodup hvalues

theorem Built.exact {v : Value} (h : v.Built) : v.Exact := by
  induction h with
  | null => exact .null
  | bool b => exact .bool b
  | @int n _ => exact .int n
  | @text t _ => exact .text t
  | array h _ _ ih => exact .array h ih

/-- The integer that a truth value or an integer counts as. -/
def integer? : Value → Option Int
  | .bool b => some (if b then 1 else 0)
  | .int n => some n
  | _ => none

/-- Two values are equal except that truth values may stand for the integers that they count as,
and that the entries of maps may be in another order. -/
inductive Alike : Value → Value → Prop
  | null : Alike .null .null
  | number {a b : Value} {m : Int} (ha : a.integer? = some m) (hb : b.integer? = some m) :
    Alike a b
  | text (t : Text) : Alike (.text t) (.text t)
  | list {xs ys : List Value} (hlength : xs.length = ys.length)
    (h : ∀ (i : Nat) v w, xs[i]? = some v → ys[i]? = some w → Alike v w) :
    Alike (.list xs) (.list ys)
  | map {xs ys : List (Key × Value)} (hkeys : ∀ k, k ∈ xs.map (·.1) ↔ k ∈ ys.map (·.1))
    (h : ∀ k v w, (k, v) ∈ xs → (k, w) ∈ ys → Alike v w) : Alike (.map xs) (.map ys)

variable {a b c : Value}

/-! ## The relation -/

theorem value_of_nodup {es : List (Key × Value)} (h : (es.map (·.1)).Nodup) {k : Key} {v w : Value}
    (hv : (k, v) ∈ es) (hw : (k, w) ∈ es) : v = w := by
  have heq := List.inj_on_of_nodup_map h hv hw rfl
  exact congrArg Prod.snd heq

theorem Exact.alike (h : a.Exact) : Alike a a := by
  induction h with
  | null => exact .null
  | bool b => exact .number rfl rfl
  | int n => exact .number rfl rfl
  | text t => exact .text t
  | list _ ih =>
    refine .list rfl fun i v w hv hw => ?_
    obtain rfl : v = w := Option.some.inj (hv.symm.trans hw)
    exact ih v (List.mem_of_getElem? hv)
  | map hkeys _ ih =>
    refine .map (fun _ => Iff.rfl) fun k v w hv hw => ?_
    obtain rfl : v = w := value_of_nodup hkeys hv hw
    exact ih (k, v) hv

theorem Alike.symm (h : Alike a b) : Alike b a := by
  induction h with
  | null => exact .null
  | number ha hb => exact .number hb ha
  | text t => exact .text t
  | list hlength _ ih => exact .list hlength.symm fun i v w hv hw => ih i w v hw hv
  | map hkeys _ ih => exact .map (fun k => (hkeys k).symm) fun k v w hv hw => ih k w v hw hv

theorem exists_of_mem_keys {es : List (Key × Value)} {k : Key} (h : k ∈ es.map (·.1)) :
    ∃ v, (k, v) ∈ es := by
  obtain ⟨e, he, rfl⟩ := List.mem_map.mp h
  exact ⟨e.2, he⟩

theorem Alike.trans (h : Alike a b) (h' : Alike b c) : Alike a c := by
  induction h generalizing c with
  | null => exact h'
  | text t => exact h'
  | number ha hb =>
    cases h' with
    | number hb' hc =>
      obtain rfl := Option.some.inj (hb.symm.trans hb')
      exact .number ha hc
    | _ => cases hb
  | list hlength _ ih =>
    cases h' with
    | number hb' _ => cases hb'
    | list hlength' h' =>
      refine .list (hlength.trans hlength') fun i v u hv hu => ?_
      -- the one between them is there as well
      have hi : i < _ := hlength ▸ (List.getElem?_eq_some_iff.mp hv).1
      exact ih i v _ hv (List.getElem?_eq_getElem hi) (h' i _ u (List.getElem?_eq_getElem hi) hu)
  | map hkeys _ ih =>
    cases h' with
    | number hb' _ => cases hb'
    | map hkeys' h' =>
      refine .map (fun k => (hkeys k).trans (hkeys' k)) fun k v u hv hu => ?_
      obtain ⟨w, hw⟩ := exists_of_mem_keys ((hkeys k).mp (List.mem_map_of_mem hv))
      exact ih k v w hv hw (h' k w u hw hu)

/-! ## Scalars -/

theorem scalarNumber?_of_exact (h : a.Exact) : scalarNumber? a = a.integer?.map Number.int := by
  cases h <;> rfl

theorem sameNaN_of_exact (h : a.Exact) : sameNaN a b = false := by
  cases h <;> rfl

theorem Alike.integer?_eq (h : Alike a b) : a.integer? = b.integer? := by
  cases h with
  | number ha hb => rw [ha, hb]
  | _ => rfl

/-- Values of different kinds are not alike unless they count as integers. -/
theorem not_alike (hkind : a.kind ≠ b.kind) (hm : a.integer? = none) : ¬Alike a b := by
  intro h
  cases h with
  | number ha _ =>
    rw [ha] at hm
    cases hm
  | _ => exact hkind rfl

/-- A value that is no array is equal to what it is equal to as a scalar. -/
theorem eqScalar_iff (ha : a.Exact) (hb : b.Exact) (hscalar : a.isArray = false) :
    eqScalar a b = true ↔ Alike a b := by
  have hdiffer (hne : a.integer? ≠ b.integer?) : ¬Alike a b := fun h => hne h.integer?_eq
  unfold eqScalar
  rw [scalarNumber?_of_exact ha, scalarNumber?_of_exact hb]
  cases hm : a.integer? with
  | some m =>
    cases hn : b.integer? with
    | some n =>
      have hnumbers : (compareNumbers? (.int m) (.int n) == some .eq) = true ↔ m = n := by
        rw [beq_iff_eq, compareNumbers?, Option.some.injEq, Int.compare_eq_eq]
      refine hnumbers.trans ⟨?_, fun h => ?_⟩
      · rintro rfl
        exact .number hm hn
      · exact Option.some.inj (hm.symm.trans (h.integer?_eq.trans hn))
    | none =>
      have hne : a.integer? ≠ b.integer? := by
        rw [hm, hn]
        exact Option.some_ne_none m
      exact iff_of_false Bool.false_ne_true (hdiffer hne)
  | none =>
    cases hn : b.integer? with
    | some n =>
      have hne : a.integer? ≠ b.integer? := by
        rw [hm, hn]
        exact (Option.some_ne_none n).symm
      exact iff_of_false Bool.false_ne_true (hdiffer hne)
    | none =>
      -- no numbers are left, and no doubles
      cases ha with
      | bool => cases hm
      | int => cases hm
      | list => cases hscalar
      | map => cases hscalar
      | null =>
        cases hb with
        | null => exact iff_of_true rfl .null
        | bool => cases hn
        | int => cases hn
        | _ => exact iff_of_false Bool.false_ne_true (not_alike nofun rfl)
      | text s =>
        cases hb with
        | bool => cases hn
        | int => cases hn
        | text t =>
          have htexts : (s == t) = true ↔ s = t := beq_iff_eq
          refine htexts.trans ⟨?_, fun h => ?_⟩
          · rintro rfl
            exact .text s
          · cases h with
            | number h _ => cases h
            | text => rfl
        | _ => exact iff_of_false Bool.false_ne_true (not_alike nofun rfl)

/-! ## Arrays -/

section

variable {R : Value → Value → Prop}

/-- Lists of items are equal one by one. -/
theorem eqItems_iff {xs ys : List Value} (hxs : ∀ v ∈ xs, v.Exact)
    (h : ∀ v ∈ xs, ∀ w ∈ ys, eq v w = true ↔ R v w) :
    eqItems xs ys = true ↔ xs.length = ys.length
      ∧ ∀ (i : Nat) v w, xs[i]? = some v → ys[i]? = some w → R v w := by
  induction xs generalizing ys with
  | nil =>
    cases ys with
    | nil => exact iff_of_true rfl ⟨rfl, fun i v w hv => by cases hv⟩
    | cons y ys => exact iff_of_false Bool.false_ne_true fun h => by cases h.1
  | cons x xs ih =>
    obtain ⟨hx, hxs⟩ := List.forall_mem_cons.mp hxs
    cases ys with
    | nil => exact iff_of_false Bool.false_ne_true fun h => by cases h.1
    | cons y ys =>
      have hhead : eq x y = true ↔ R x y := h x (List.mem_cons_self ..) y (List.mem_cons_self ..)
      have htail := ih hxs fun v hv w hw =>
        h v (List.mem_cons_of_mem _ hv) w (List.mem_cons_of_mem _ hw)
      rw [eqItems, sameNaN_of_exact hx, Bool.false_or, Bool.and_eq_true, hhead, htail]
      constructor
      · rintro ⟨hxy, hlength, hall⟩
        refine ⟨congrArg (· + 1) hlength, fun i v w hv hw => ?_⟩
        cases i with
        | zero =>
          cases hv
          cases hw
          exact hxy
        | succ i => exact hall i v w hv hw
      · rintro ⟨hlength, hall⟩
        exact ⟨hall 0 x y rfl rfl, Nat.succ.inj hlength, fun i v w hv hw => hall (i + 1) v w hv hw⟩

theorem lookup_of_mem {es : List (Key × Value)} (h : (es.map (·.1)).Nodup) {k : Key} {v : Value}
    (hv : (k, v) ∈ es) : es.lookup k = some v := by
  obtain ⟨before, after, rfl⟩ := List.append_of_mem hv
  refine List.lookup_eq_some_iff.mpr ⟨before, after, rfl, fun e he => bne_iff_ne.mpr ?_⟩
  rw [List.map_append, List.nodup_append] at h
  exact (h.2.2 e.1 (List.mem_map_of_mem he) k (List.mem_cons_self ..)).symm

theorem mem_of_lookup_key {es : List (Key × Value)} {k : Key} {v : Value}
    (h : es.lookup k = some v) : (k, v) ∈ es := by
  obtain ⟨before, after, rfl, -⟩ := List.lookup_eq_some_iff.mp h
  exact List.mem_append_right _ (List.mem_cons_self ..)

theorem eqEntries_cons (k : Key) (v : Value) (xs ys : List (Key × Value)) :
    eqEntries ((k, v) :: xs) ys
      = ((ys.lookup k).any (fun w => sameNaN v w || eq v w) && eqEntries xs ys) := by
  rw [eqEntries]
  cases ys.lookup k <;> rfl

/-- Each entry of the first map is one of the second. -/
theorem eqEntries_iff {xs ys : List (Key × Value)} (hxs : ∀ e ∈ xs, e.2.Exact)
    (hkeys : (ys.map (·.1)).Nodup) (h : ∀ e ∈ xs, ∀ d ∈ ys, eq e.2 d.2 = true ↔ R e.2 d.2) :
    eqEntries xs ys = true ↔ ∀ k v, (k, v) ∈ xs → ∃ w, (k, w) ∈ ys ∧ R v w := by
  induction xs with
  | nil => exact iff_of_true rfl fun k v hv => by cases hv
  | cons e xs ih =>
    obtain ⟨k, v⟩ := e
    obtain ⟨hv, hxs⟩ := List.forall_mem_cons.mp hxs
    have htail := ih hxs fun e he => h e (List.mem_cons_of_mem _ he)
    have hhead : (ys.lookup k).any (fun w => sameNaN v w || eq v w) = true
        ↔ ∃ w, (k, w) ∈ ys ∧ R v w := by
      cases hlookup : ys.lookup k with
      | none =>
        refine iff_of_false Bool.false_ne_true ?_
        rintro ⟨w, hw, -⟩
        rw [lookup_of_mem hkeys hw] at hlookup
        cases hlookup
      | some w =>
        have hw := mem_of_lookup_key hlookup
        have hvw := h (k, v) (List.mem_cons_self ..) (k, w) hw
        have hnan : sameNaN v w = false := sameNaN_of_exact hv
        rw [Option.any_some, hnan, Bool.false_or]
        refine hvw.trans ⟨fun hR => ⟨w, hw, hR⟩, ?_⟩
        rintro ⟨u, hu, hR⟩
        obtain rfl : u = w := value_of_nodup hkeys hu hw
        exact hR
    rw [eqEntries_cons, Bool.and_eq_true]
    refine (and_congr hhead htail).trans ⟨?_, fun hall => ?_⟩
    · rintro ⟨hfirst, hall⟩ j u hu
      rcases List.mem_cons.mp hu with heq | hu
      · cases heq
        exact hfirst
      · exact hall j u hu
    · exact ⟨hall k v (List.mem_cons_self ..), fun j u hu => hall j u (List.mem_cons_of_mem _ hu)⟩

/-- Maps with as many entries, of which the first map's keys are all in the second, have the same
keys. -/
theorem mem_keys_iff_of_length {xs ys : List (Key × Value)} (hxs : (xs.map (·.1)).Nodup)
    (hlength : xs.length = ys.length) (h : ∀ k ∈ xs.map (·.1), k ∈ ys.map (·.1)) (k : Key) :
    k ∈ xs.map (·.1) ↔ k ∈ ys.map (·.1) := by
  have hle : (ys.map (·.1)).length ≤ (xs.map (·.1)).length := by
    rw [List.length_map, List.length_map]
    exact Nat.le_of_eq hlength.symm
  exact ((hxs.subperm h).perm_of_length_le hle).mem_iff

end

/-- Exact values are equal exactly if they are alike. -/
theorem eq_iff (ha : a.Exact) (hb : b.Exact) : eq a b = true ↔ Alike a b := by
  induction ha generalizing b with
  | null => exact eqScalar_iff .null hb rfl
  | bool t => exact eqScalar_iff (.bool t) hb rfl
  | int n => exact eqScalar_iff (.int n) hb rfl
  | text t => exact eqScalar_iff (.text t) hb rfl
  | @list xs hxs ih =>
    cases hb with
    | @list ys hys =>
      rw [eq, eqItems_iff hxs fun v hv w hw => ih v hv (hys w hw)]
      constructor
      · exact fun h => .list h.1 h.2
      · intro h
        cases h with
        | number h _ => cases h
        | list hlength h => exact ⟨hlength, h⟩
    | _ => exact iff_of_false Bool.false_ne_true (not_alike nofun rfl)
  | @map xs hkeys hxs ih =>
    cases hb with
    | @map ys hkeys' hys =>
      rw [eq, Bool.and_eq_true, beq_iff_eq,
        eqEntries_iff hxs hkeys' fun e he d hd => ih e he (hys d hd)]
      constructor
      · rintro ⟨hlength, hall⟩
        refine .map (mem_keys_iff_of_length hkeys hlength fun k hk => ?_) fun k v w hv hw => ?_
        · obtain ⟨v, hv⟩ := exists_of_mem_keys hk
          obtain ⟨w, hw, -⟩ := hall k v hv
          exact List.mem_map_of_mem hw
        · obtain ⟨u, hu, hvu⟩ := hall k v hv
          obtain rfl : u = w := value_of_nodup hkeys' hu hw
          exact hvu
      · intro h
        cases h with
        | number h _ => cases h
        | map hsame h =>
          have hperm := (List.perm_ext_iff_of_nodup hkeys hkeys').mpr hsame
          have hlength := hperm.length_eq
          rw [List.length_map, List.length_map] at hlength
          refine ⟨hlength, fun k v hv => ?_⟩
          obtain ⟨w, hw⟩ := exists_of_mem_keys ((hsame k).mp (List.mem_map_of_mem hv))
          exact ⟨w, hw, h k v w hv hw⟩
    | _ => exact iff_of_false Bool.false_ne_true (not_alike nofun rfl)

end StaticReflection.Value
