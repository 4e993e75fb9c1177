import StaticReflection.Text.Blank

/-!
# Stripping blanks

Characters with no blank at either end (`Blank.IsTrimmed`) are what stripping leaves
(`Blank.isTrimmed_strip`), and are left as they are (`Blank.strip_of_isTrimmed`). Blanks around them
are taken off whole (`Blank.strip_between`).
-/

namespace StaticReflection.Blank

/-- Characters with no blank at either end. -/
structure IsTrimmed (cs : List Char) : Prop where
  head : ∀ c, cs.head? = some c → isBlank c = false
  last : ∀ c, cs.getLast? = some c → isBlank c = false

theorem dropStart_head {cs : List Char} {c : Char} (h : (dropStart cs).head? = some c) :
    isBlank c = false := by
  have := List.head?_dropWhile_not isBlank cs
  unfold dropStart at h
  rw [h] at this
  simpa using this

theorem dropStart_of_head {cs : List Char} (h : ∀ c, cs.head? = some c → isBlank c = false) :
    dropStart cs = cs := by
  cases cs with
  | nil => rfl
  | cons c rest =>
    have hc : ¬isBlank c = true := Bool.eq_false_iff.mp (h c rfl)
    unfold dropStart
    rw [List.dropWhile_cons_of_neg hc]

theorem suffix_dropStart (cs : List Char) : dropStart cs <:+ cs := List.dropWhile_suffix _

theorem prefix_dropEnd (cs : List Char) : dropEnd cs <+: cs := by
  have h := List.dropWhile_suffix (l := cs.reverse) isBlank
  rw [← List.reverse_prefix, List.reverse_reverse] at h
  exact h

theorem dropEnd_of_last {cs : List Char} (h : ∀ c, cs.getLast? = some c → isBlank c = false) :
    dropEnd cs = cs := by
  have hhead : ∀ c, cs.reverse.head? = some c → isBlank c = false := fun c hc => by
    rw [List.head?_reverse] at hc
    exact h c hc
  have hsame := dropStart_of_head hhead
  unfold dropStart at hsame
  unfold dropEnd
  rw [hsame, List.reverse_reverse]

theorem dropEnd_last {cs : List Char} {c : Char} (h : (dropEnd cs).getLast? = some c) :
    isBlank c = false := by
  unfold dropEnd at h
  rw [List.getLast?_reverse] at h
  exact dropStart_head h

/-- The characters of a text without the blanks around it. -/
theorem toList_strip (s : String) : (strip s).toList = dropEnd (dropStart s.toList) :=
  String.toList_ofList

theorem isTrimmed_strip (s : String) : IsTrimmed (strip s).toList := by
  rw [toList_strip]
  refine ⟨fun c hc => ?_, fun c hc => dropEnd_last hc⟩
  -- what remains begins as it did before its end was cut
  obtain ⟨rest, hrest⟩ := prefix_dropEnd (dropStart s.toList)
  have hhead : (dropStart s.toList).head? = some c := by
    rw [← hrest, List.head?_append, hc]
    rfl
  exact dropStart_head hhead

theorem strip_of_isTrimmed {s : String} (h : IsTrimmed s.toList) : strip s = s := by
  unfold strip
  rw [dropStart_of_head h.head, dropEnd_of_last h.last, String.ofList_toList]

theorem mem_of_mem_strip {s : String} {c : Char} (h : c ∈ (strip s).toList) : c ∈ s.toList := by
  rw [toList_strip] at h
  exact (suffix_dropStart _).subset ((prefix_dropEnd _).subset h)

theorem length_strip_le (s : String) : (strip s).toList.length ≤ s.toList.length := by
  rw [toList_strip]
  exact Nat.le_trans (prefix_dropEnd _).length_le (suffix_dropStart _).length_le

/-! ## Blanks around other characters -/

theorem dropStart_blanks {ws : List Char} (h : ∀ c ∈ ws, isBlank c = true) (cs : List Char) :
    dropStart (ws ++ cs) = dropStart cs := List.dropWhile_append_of_pos h

theorem dropStart_eq_nil {ws : List Char} (h : ∀ c ∈ ws, isBlank c = true) : dropStart ws = [] := by
  have hnil := dropStart_blanks h []
  rw [List.append_nil] at hnil
  exact hnil

theorem dropEnd_blanks {ws : List Char} (h : ∀ c ∈ ws, isBlank c = true) (cs : List Char) :
    dropEnd (cs ++ ws) = dropEnd cs := by
  unfold dropEnd
  rw [List.reverse_append, List.dropWhile_append_of_pos fun c hc => h c (List.mem_reverse.mp hc)]

/-- What stands before a character that is no blank stays when the end is stripped. -/
theorem dropEnd_append_cons (cs : List Char) {c : Char} (hc : isBlank c = false)
    (rest : List Char) : dropEnd (cs ++ c :: rest) = cs ++ c :: dropEnd rest := by
  have hstop : (c :: cs.reverse).dropWhile isBlank = c :: cs.reverse :=
    List.dropWhile_cons_of_neg (Bool.eq_false_iff.mp hc)
  have hkept : (rest.reverse ++ c :: cs.reverse).dropWhile isBlank
      = rest.reverse.dropWhile isBlank ++ c :: cs.reverse := by
    rw [List.dropWhile_append, hstop]
    split
    next h => rw [List.isEmpty_iff.mp h, List.nil_append]
    next => rfl
  unfold dropEnd
  rw [List.reverse_append, List.reverse_cons, List.append_assoc, List.singleton_append, hkept,
    List.reverse_append, List.reverse_cons, List.reverse_reverse, List.append_assoc,
    List.singleton_append]

theorem dropEnd_append {xs : List Char} (h : ∀ c, xs.getLast? = some c → isBlank c = false)
    (ys : List Char) : dropEnd (xs ++ ys) = xs ++ dropEnd ys := by
  rcases List.eq_nil_or_concat xs with hnil | ⟨front, c, hxs⟩
  · rw [hnil, List.nil_append, List.nil_append]
  · rw [List.concat_eq_append] at hxs
    subst hxs
    have hc : isBlank c = false := h c (List.getLast?_concat ..)
    rw [List.append_assoc, List.singleton_append, dropEnd_append_cons _ hc, List.append_assoc,
      List.singleton_append]

/-- A blank goes only if nothing but blanks stands behind it. -/
theorem dropEnd_cons {c : Char} (hc : isBlank c = true) (cs : List Char) :
    dropEnd (c :: cs) = if (dropEnd cs).isEmpty then [] else c :: dropEnd cs := by
  unfold dropEnd
  rw [List.reverse_cons, List.dropWhile_append, List.isEmpty_reverse]
  split
  · rw [List.dropWhile_cons_of_pos hc, List.dropWhile_nil, List.reverse_nil]
  · rw [List.reverse_append, List.reverse_singleton, List.singleton_append]

/-- Blanks on both sides of trimmed characters are stripped. -/
theorem strip_between {before cs after : List Char} (hbefore : ∀ c ∈ before, isBlank c = true)
    (hafter : ∀ c ∈ after, isBlank c = true) (h : IsTrimmed cs) :
    dropEnd (dropStart (before ++ (cs ++ after))) = cs := by
  rw [dropStart_blanks hbefore]
  cases cs with
  | nil =>
    rw [List.nil_append, dropStart_eq_nil hafter]
    rfl
  | cons c rest =>
    have hstart : dropStart (c :: rest ++ after) = c :: rest ++ after :=
      dropStart_of_head fun d hd => h.head d hd
    rw [hstart, dropEnd_blanks hafter, dropEnd_of_last h.last]

end StaticReflection.Blank
