import StaticReflection.Proofs.Value.Canonical

/-!
# The union of arrays

A union has the entries of its left operand and, after them, those of the right one whose keys the
left one lacks (`Value.unite`, which is what adding the entries of the right one by one comes to,
`Value.unite_eq_foldl`). On entries that is a monoid, in which what stands on the left wins. The
operator sets the united entries once more, key by key, and then decides between list and map;
since keys that were keys stay what they are, neither changes an entry (`Value.union_eq`).

> `Value.union_monoid`: the union of arrays that can be built is one again, with just these
> entries; it is associative, has the empty array as its neutral element, and is idempotent.
-/

namespace StaticReflection.Value

open Accumulator

/-! ## United entries -/

section

variable (a b c : List (Key × Value))

theorem unite_eq : unite a b = a ++ b.filter fun e => e.1 ∉ a.map (·.1) := by
  unfold unite
  congr 1
  refine List.filter_congr fun e _ => ?_
  rw [Bool.eq_iff_iff, Option.isNone_iff_eq_none, List.lookup_eq_none_iff, decide_eq_true_eq,
    List.mem_map]
  constructor
  · rintro h ⟨d, hd, hkey⟩
    exact bne_iff_ne.mp (h d hd) hkey.symm
  · exact fun h d hd => bne_iff_ne.mpr fun hkey => h ⟨d, hd, hkey.symm⟩

variable {a b c}

theorem mem_unite {e : Key × Value} :
    e ∈ unite a b ↔ e ∈ a ∨ e ∈ b ∧ e.1 ∉ a.map (·.1) := by
  rw [unite_eq, List.mem_append, List.mem_filter, decide_eq_true_eq]

theorem mem_keys_unite {k : Key} :
    k ∈ (unite a b).map (·.1) ↔ k ∈ a.map (·.1) ∨ k ∈ b.map (·.1) := by
  simp only [List.mem_map, mem_unite]
  constructor
  · rintro ⟨e, he | ⟨he, -⟩, rfl⟩
    · exact .inl ⟨e, he, rfl⟩
    · exact .inr ⟨e, he, rfl⟩
  · rintro (⟨e, he, rfl⟩ | ⟨e, he, rfl⟩)
    · exact ⟨e, .inl he, rfl⟩
    · -- if the left one has the key as well, it is there with that value
      by_cases hleft : ∃ d ∈ a, d.1 = e.1
      · obtain ⟨d, hd, hkey⟩ := hleft
        exact ⟨d, .inl hd, hkey⟩
      · exact ⟨e, .inr ⟨he, hleft⟩, rfl⟩

theorem nodup_unite (ha : (a.map (·.1)).Nodup) (hb : (b.map (·.1)).Nodup) :
    ((unite a b).map (·.1)).Nodup := by
  rw [unite_eq, List.map_append]
  refine List.nodup_append.mpr ⟨ha, hb.sublist (List.filter_sublist.map _), ?_⟩
  rintro k hk _ hk' rfl
  obtain ⟨e, he, rfl⟩ := List.mem_map.mp hk'
  exact of_decide_eq_true (List.mem_filter.mp he).2 hk

variable (a b c)

theorem unite_nil : unite a [] = a := List.append_nil a

theorem nil_unite : unite [] a = a := by
  rw [unite_eq, List.nil_append]
  exact List.filter_eq_self.mpr fun e _ => decide_eq_true List.not_mem_nil

theorem unite_self : unite a a = a := by
  have hnone : (a.filter fun e => e.1 ∉ a.map (·.1)) = [] :=
    List.filter_eq_nil_iff.mpr fun e he => by
      simpa only [decide_eq_true_eq, Decidable.not_not] using List.mem_map_of_mem he
  rw [unite_eq, hnone, List.append_nil]

/-- An entry of the third is kept exactly if neither of the first two has its key, however the
three are bracketed. -/
theorem unite_assoc : unite (unite a b) c = unite a (unite b c) := by
  have hkept : (c.filter fun e => e.1 ∉ (unite a b).map (·.1))
      = (c.filter fun e => e.1 ∉ b.map (·.1)).filter fun e => e.1 ∉ a.map (·.1) := by
    rw [List.filter_filter]
    refine List.filter_congr fun e _ => ?_
    rw [Bool.eq_iff_iff, Bool.and_eq_true]
    simp only [decide_eq_true_eq, mem_keys_unite, not_or]
  calc unite (unite a b) c
      = (a ++ b.filter fun e => e.1 ∉ a.map (·.1))
          ++ c.filter fun e => e.1 ∉ (unite a b).map (·.1) := by
        rw [unite_eq (unite a b) c, unite_eq a b]
    _ = a ++ (b ++ c.filter fun e => e.1 ∉ b.map (·.1)).filter fun e => e.1 ∉ a.map (·.1) := by
        rw [hkept, List.filter_append, List.append_assoc]
    _ = unite a (unite b c) := by rw [unite_eq a (unite b c), unite_eq b c]

end

/-- The entries with another one at the end, unless its key is there. -/
def supply (es : List (Key × Value)) (e : Key × Value) : List (Key × Value) :=
  if e.1 ∈ es.map (·.1) then es else es ++ [e]

/-- Uniting is supplying what the left one lacks, entry by entry. -/
theorem unite_eq_foldl (a : List (Key × Value)) {b : List (Key × Value)}
    (hb : (b.map (·.1)).Nodup) : unite a b = b.foldl supply a := by
  induction b generalizing a with
  | nil => exact unite_nil a
  | cons e rest ih =>
    obtain ⟨hnew, hrest⟩ := List.nodup_cons.mp hb
    have hone : unite a [e] = supply a e := by
      unfold supply
      by_cases he : e.1 ∈ a.map (·.1)
      · simp only [unite_eq, List.filter_cons, he, if_true, not_true_eq_false, decide_false,
          Bool.false_eq_true, if_false, List.filter_nil, List.append_nil]
      · simp only [unite_eq, List.filter_cons, he, if_false, not_false_eq_true, decide_true,
          if_true, List.filter_nil]
    have hfirst : unite [e] rest = e :: rest := by
      rw [unite_eq, List.singleton_append, List.cons.injEq]
      refine ⟨rfl, List.filter_eq_self.mpr fun d hd => decide_eq_true fun hkey => hnew ?_⟩
      rw [← List.mem_singleton.mp hkey]
      exact List.mem_map_of_mem hd
    rw [List.foldl_cons, ← ih _ hrest, ← hone, unite_assoc, hfirst]

/-! ## The operator -/

section

variable {a b : Value}

theorem normal_unite (ha : a.IsProducible) (hb : b.IsProducible) :
    ∀ e ∈ unite a.entries b.entries, e.1.IsNormal := by
  intro e he
  rcases mem_unite.mp he with h | h
  · exact ha.normal e h
  · exact hb.normal e h.1

/-- Of arrays that can be built the union is what their united entries make. -/
theorem union_eq (ha : a.IsProducible) (hb : b.IsProducible) :
    union a b = .ok (valueOf (unite a.entries b.entries)) := by
  have hnodup : ((unite a.entries b.entries).map (·.1)).Nodup :=
    nodup_unite ha.keys_nodup hb.keys_nodup
  have hunion : union a b = (unite a.entries b.entries).foldlM
      (fun acc e => acc.set e.1.toValue e.2) empty >>= fun built => .ok built.value := rfl
  rw [hunion, foldlM_set empty (normal_unite ha hb), Outcome.ok_bind, Accumulator.value,
    entries_insertAll (a := empty) hnodup]
  rfl

theorem add_eq (ha : a.IsProducible) (hb : b.IsProducible) :
    apply .add a b = .ok (valueOf (unite a.entries b.entries)) := by
  have hboth : (a.isArray && b.isArray) = true := by rw [ha.isArray, hb.isArray]; rfl
  show add a b = _
  rw [add, if_pos hboth, union_eq ha hb]

theorem isProducible_unite (ha : a.IsProducible) (hb : b.IsProducible) :
    (valueOf (unite a.entries b.entries)).IsProducible :=
  isProducible_valueOf (nodup_unite ha.keys_nodup hb.keys_nodup) (normal_unite ha hb)

end

/-- The union of arrays that can be built is such an array, with the entries of the left one and
then those of the right one whose keys the left one lacks. It is associative, the empty array is
neutral on both sides, and the union of an array with itself is that array. -/
theorem union_monoid {a b c : Value} (ha : a.IsProducible) (hb : b.IsProducible)
    (hc : c.IsProducible) :
    (∃ u, apply .add a b = .ok u ∧ u.IsProducible
        ∧ u.entries = a.entries ++ b.entries.filter fun e => e.1 ∉ a.entries.map (·.1))
      ∧ (∃ u, (do apply .add (← apply .add a b) c) = .ok u
        ∧ (do apply .add a (← apply .add b c)) = .ok u)
      ∧ (apply .add (.list []) a = .ok a ∧ apply .add a (.list []) = .ok a)
      ∧ apply .add a a = .ok a := by
  have hab := isProducible_unite ha hb
  have hbc := isProducible_unite hb hc
  have hfirst : (do apply .add (← apply .add a b) c)
      = .ok (valueOf (unite (unite a.entries b.entries) c.entries)) := by
    rw [add_eq ha hb, Outcome.ok_bind, add_eq hab hc, entries_valueOf]
  have hlast : (do apply .add a (← apply .add b c))
      = .ok (valueOf (unite a.entries (unite b.entries c.entries))) := by
    rw [add_eq hb hc, Outcome.ok_bind, add_eq ha hbc, entries_valueOf]
  refine ⟨⟨_, add_eq ha hb, hab, ?_⟩, ⟨_, hfirst, ?_⟩, ⟨?_, ?_⟩, ?_⟩
  · rw [entries_valueOf, unite_eq]
  · rw [hlast, unite_assoc]
  · rw [add_eq (isProducible_list []) ha]
    exact congrArg Except.ok ((congrArg valueOf (nil_unite a.entries)).trans ha.valueOf_entries)
  · rw [add_eq ha (isProducible_list [])]
    exact congrArg Except.ok ((congrArg valueOf (unite_nil a.entries)).trans ha.valueOf_entries)
  · rw [add_eq ha ha, unite_self, ha.valueOf_entries]

/-- An array with elements at integer keys that do not count up, and at a text. -/
def sparse : Value :=
  .map [(.int 1, .null), (.text (Text.ofString "k"), .bool true), (.int (-3), .int 7)]

theorem isProducible_sparse : sparse.IsProducible := by
  refine isProducible_iff.mpr ⟨rfl, by decide, ?_⟩
  unfold sparse entries
  simp only [List.forall_mem_cons, List.not_mem_nil, false_implies, implies_true, and_true]
  exact ⟨rfl, rfl, rfl⟩

/-- The union of a list with such an array is a map, in which the key of the second element stands
behind that of the first; a list united with it adds what is missing, from either side. -/
theorem union_monoid_sparse :
    (list [.int 0]).IsProducible ∧ sparse.IsProducible ∧ (list [.null, .null, .int 2]).IsProducible
      ∧ (∃ u, apply .add (.list [.int 0]) sparse = .ok u ∧ u.IsProducible
        ∧ u.entries = [(.int 0, .int 0), (.int 1, .null), (.text (Text.ofString "k"), .bool true),
          (.int (-3), .int 7)])
      ∧ ∃ u, (do apply .add (← apply .add (.list [.int 0]) sparse) (.list [.null, .null, .int 2]))
          = .ok u
        ∧ (do apply .add (.list [.int 0]) (← apply .add sparse (.list [.null, .null, .int 2])))
          = .ok u := by
  have hfirst := isProducible_list [.int 0]
  have hlast := isProducible_list [.null, .null, .int 2]
  obtain ⟨⟨u, hu, hproducible, hentries⟩, hassoc, -⟩ :=
    union_monoid hfirst isProducible_sparse hlast
  exact ⟨hfirst, isProducible_sparse, hlast, ⟨u, hu, hproducible, hentries.trans rfl⟩, hassoc⟩

end StaticReflection.Value
