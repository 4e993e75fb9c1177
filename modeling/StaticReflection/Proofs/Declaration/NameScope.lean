import StaticReflection.Declaration.NameScope

/-!
# Keys and resolved names

The key of an identifier is trimmed first and put in lower case after that. The order
makes no difference:

> `Identifier.normalize_eq`: the key of an identifier is what trimming leaves of it in
> lower case.

So identifiers that differ in letter case only have the same key. Blanks and backslashes,
which are trimmed, have no case, are no letter's lower case, and end the words that the
final form of a sigma depends on; for the tables that is checked once.
-/

namespace StaticReflection

open LetterCase CaseTable

namespace LetterCase

/-- Whether a character is one that identifiers are trimmed of. -/
def isEdge (c : Char) : Bool := Blank.isBlank c || c == '\\'

/-- The code points of the characters that identifiers are trimmed of. -/
def edgeRanges : List (Nat × Nat) := [
  (9, 13), (0x1c, 0x20), (0x5c, 0x5c), (0x85, 0x85), (0xa0, 0xa0), (0x1680, 0x1680),
  (0x2000, 0x200a), (0x2028, 0x2029), (0x202f, 0x202f), (0x205f, 0x205f), (0x3000, 0x3000)]

/-- A range of code points has none that identifiers are trimmed of. -/
def avoidsEdges (first last : Nat) : Bool := edgeRanges.all fun e => last < e.1 || e.2 < first

theorem isEdge_iff (c : Char) : isEdge c = true ↔ inRanges edgeRanges c.toNat = true := by
  have hbackslash : (c == '\\') = true ↔ c.toNat = 0x5c := by
    rw [beq_iff_eq, ← Char.toNat_inj]
    rfl
  unfold isEdge
  rw [Bool.or_eq_true, hbackslash]
  simp only [Blank.isBlank, Blank.isBlankCode, inRanges, edgeRanges, List.any_cons, List.any_nil,
    Bool.or_eq_true, Bool.and_eq_true, decide_eq_true_eq, beq_iff_eq, Bool.or_false]
  omega

theorem not_edge_of_avoids {first last n : Nat} (h : avoidsEdges first last = true)
    (hn : first ≤ n ∧ n ≤ last) : inRanges edgeRanges n = false := by
  rw [inRanges, List.any_eq_false]
  intro e he
  have hdisjoint := List.all_eq_true.mp h e he
  rw [Bool.or_eq_true, decide_eq_true_eq, decide_eq_true_eq] at hdisjoint
  rw [Bool.and_eq_true, decide_eq_true_eq, decide_eq_true_eq]
  omega

theorem lowerRuns_avoid : (lowerRuns.all fun r =>
    avoidsEdges r.1 r.2.1 && avoidsEdges (Int.ofNat r.1 + r.2.2.2).toNat
      (Int.ofNat r.2.1 + r.2.2.2).toNat) = true := by decide +kernel

theorem casedRanges_avoid : (casedRanges.all fun r => avoidsEdges r.1 r.2) = true := by
  decide +kernel

theorem ignorableRanges_avoid : (ignorableRanges.all fun r => avoidsEdges r.1 r.2) = true := by
  decide +kernel

theorem ascii_edges : ∀ n < 128, isEdge (Char.ofNat n).toLower = isEdge (Char.ofNat n)
    ∧ (isEdge (Char.ofNat n) = true → (Char.ofNat n).toLower = Char.ofNat n) := by decide +kernel

/-! ## Characters -/

theorem inRanges_edge_of_table {table : List (Nat × Nat)} {n : Nat}
    (h : (table.all fun r => avoidsEdges r.1 r.2) = true) (hn : inRanges table n = true) :
    inRanges edgeRanges n = false := by
  obtain ⟨r, hr, hrn⟩ := List.any_eq_true.mp hn
  rw [Bool.and_eq_true, decide_eq_true_eq, decide_eq_true_eq] at hrn
  exact not_edge_of_avoids (List.all_eq_true.mp h r hr) hrn

/-- The table of lower case keeps edges, and leads to none from anywhere else. -/
theorem inRanges_edge_mapRuns (n : Nat) :
    inRanges edgeRanges (mapRuns lowerRuns n) = inRanges edgeRanges n
      ∧ (inRanges edgeRanges n = true → mapRuns lowerRuns n = n) := by
  unfold mapRuns
  simp only
  split
  next first last step shift hfind =>
    have hmem := List.mem_of_find?_eq_some hfind
    have hholds := List.find?_some hfind
    have havoid := List.all_eq_true.mp lowerRuns_avoid _ hmem
    simp only [Bool.and_eq_true, decide_eq_true_eq] at hholds havoid
    have hn := not_edge_of_avoids havoid.1 hholds.1
    have hsmall := not_edge_of_avoids (n := (Int.ofNat n + shift).toNat) havoid.2 (by
      have := hholds.1
      simp only [Int.ofNat_eq_natCast]
      omega)
    rw [hn, hsmall]
    exact ⟨rfl, fun h => by cases h⟩
  next => exact ⟨rfl, fun _ => rfl⟩

/-- What a character becomes in lower case, in a place where a sigma is final or not. -/
def small (isFinal : Bool) (c : Char) : List Char :=
  if c.toNat = 0x3a3 then [Char.ofNat (if isFinal then 0x3c2 else 0x3c3)] else lowerChar c

theorem lowerFrom_cons (before : List Char) (c : Char) (rest : List Char) :
    lowerFrom before (c :: rest)
      = small (meetsCased before && !meetsCased rest) c ++ lowerFrom (c :: before) rest := rfl

/-- An edge is its own lower case. -/
theorem small_edge {c : Char} (h : isEdge c = true) (isFinal : Bool) : small isFinal c = [c] := by
  have hcode := (isEdge_iff c).mp h
  have hsigma : c.toNat ≠ 0x3a3 := fun he => by rw [he] at hcode; cases hcode
  have hdotted : c.toNat ≠ 0x130 := fun he => by rw [he] at hcode; cases hcode
  unfold small lowerChar
  rw [if_neg hsigma]
  split
  next hascii =>
    have := (ascii_edges c.toNat hascii).2
    rw [Char.ofNat_toNat] at this
    rw [this h]
  next =>
    rw [(inRanges_edge_mapRuns c.toNat).2 hcode, Char.ofNat_toNat]

theorem isEdge_ofNat {n : Nat} (h : inRanges edgeRanges n = false) :
    isEdge (Char.ofNat n) = false := by
  rw [Bool.eq_false_iff, Ne, isEdge_iff, Bool.not_eq_true]
  by_cases hn : n.isValidChar
  · rw [Char.ofNat, dif_pos hn]
    exact h
  · rw [Char.ofNat, dif_neg hn]
    rfl

/-- No other character has an edge in its lower case. -/
theorem not_edge_of_mem_small {c d : Char} {isFinal : Bool} (h : isEdge c = false)
    (hd : d ∈ small isFinal c) : isEdge d = false := by
  unfold small lowerChar at hd
  split at hd
  · rw [List.mem_singleton.mp hd]
    cases isFinal <;> rfl
  · split at hd
    next hascii =>
      have := (ascii_edges c.toNat hascii).1
      rw [Char.ofNat_toNat] at this
      rw [List.mem_singleton.mp hd, this, h]
    next =>
      split at hd
      · rcases List.mem_cons.mp hd with rfl | hd
        · rfl
        · rw [List.mem_singleton.mp hd]
          rfl
      · rw [List.mem_singleton.mp hd]
        refine isEdge_ofNat ?_
        rw [(inRanges_edge_mapRuns c.toNat).1, ← Bool.not_eq_true, ← isEdge_iff, h]
        exact Bool.false_ne_true

theorem small_ne_nil (isFinal : Bool) (c : Char) : small isFinal c ≠ [] := by
  unfold small lowerChar
  split
  · exact List.cons_ne_nil _ _
  · split
    · exact List.cons_ne_nil _ _
    · split <;> exact List.cons_ne_nil _ _

/-! ## Words -/

/-- An edge ends the word before it. -/
theorem meetsCased_edge {c : Char} (h : isEdge c = true) (rest : List Char) :
    meetsCased (c :: rest) = false := by
  have hcode := (isEdge_iff c).mp h
  have hnot {table : List (Nat × Nat)}
      (havoid : (table.all fun r => avoidsEdges r.1 r.2) = true) :
      inRanges table c.toNat = false := by
    rw [← Bool.not_eq_true]
    intro hin
    rw [inRanges_edge_of_table havoid hin] at hcode
    cases hcode
  rw [meetsCased, hnot ignorableRanges_avoid, hnot casedRanges_avoid]
  rfl

/-- What is before a text matters to its lower case by one thing only. -/
theorem lowerFrom_congr {before before' : List Char} (h : meetsCased before = meetsCased before')
    (cs : List Char) : lowerFrom before cs = lowerFrom before' cs := by
  induction cs generalizing before before' with
  | nil => rfl
  | cons c cs ih =>
    rw [lowerFrom_cons, lowerFrom_cons, h]
    refine congrArg (small _ c ++ ·) (ih ?_)
    rw [meetsCased, meetsCased, h]

theorem meetsCased_append_edge {c : Char} (h : isEdge c = true) (cs : List Char) :
    meetsCased (cs ++ [c]) = meetsCased cs := by
  induction cs with
  | nil => exact meetsCased_edge h []
  | cons d cs ih => rw [List.cons_append, meetsCased, meetsCased, ih]

/-- An edge at the end of a text stays there. -/
theorem lowerFrom_append_edge {c : Char} (h : isEdge c = true) (before cs : List Char) :
    lowerFrom before (cs ++ [c]) = lowerFrom before cs ++ [c] := by
  induction cs generalizing before with
  | nil =>
    rw [List.nil_append, lowerFrom_cons, small_edge h]
    rfl
  | cons d cs ih =>
    rw [List.cons_append, lowerFrom_cons, lowerFrom_cons, meetsCased_append_edge h, ih,
      List.append_assoc]

/-- The last characters of a text in lower case are those of its last one. -/
theorem lowerFrom_append (before cs : List Char) (c : Char) :
    ∃ start isFinal, lowerFrom before (cs ++ [c]) = start ++ small isFinal c := by
  induction cs generalizing before with
  | nil => exact ⟨[], _, by rw [List.nil_append, lowerFrom_cons, lowerFrom, List.append_nil]; rfl⟩
  | cons d cs ih =>
    obtain ⟨start, isFinal, h⟩ := ih (d :: before)
    exact ⟨_ ++ start, isFinal, by rw [List.cons_append, lowerFrom_cons, h, List.append_assoc]⟩

/-! ## Trimming -/

section

variable {p : Char → Bool} (hp : ∀ c, p c = true → isEdge c = true)
include hp

/-- What has some edges only among its characters if it is one itself. -/
theorem not_of_mem_small {c d : Char} {isFinal : Bool} (h : ¬p c = true)
    (hd : d ∈ small isFinal c) : ¬p d = true := by
  intro hpd
  cases hc : isEdge c with
  | true =>
    rw [small_edge hc, List.mem_singleton] at hd
    exact h (hd ▸ hpd)
  | false =>
    have := not_edge_of_mem_small hc hd
    rw [hp d hpd] at this
    cases this

theorem lowerFrom_dropWhile {before : List Char} (h : meetsCased before = false)
    (cs : List Char) : lowerFrom before (cs.dropWhile p) = (lowerFrom before cs).dropWhile p := by
  induction cs generalizing before with
  | nil => rfl
  | cons c cs ih =>
    by_cases hc : p c = true
    · have hedge := meetsCased_edge (hp c hc) before
      rw [List.dropWhile_cons_of_pos hc, lowerFrom_cons, small_edge (hp c hc), List.singleton_append,
        List.dropWhile_cons_of_pos hc, ← ih hedge]
      exact lowerFrom_congr (h.trans hedge.symm) _
    · rw [List.dropWhile_cons_of_neg hc, lowerFrom_cons]
      cases hsmall : small (meetsCased before && !meetsCased cs) c with
      | nil => exact absurd hsmall (small_ne_nil _ c)
      | cons d ds =>
        have hd : ¬p d = true := not_of_mem_small hp hc (hsmall ▸ List.mem_cons_self ..)
        rw [List.cons_append, List.dropWhile_cons_of_neg hd]

theorem lowerFrom_dropEnd (before cs : List Char) :
    lowerFrom before (cs.reverse.dropWhile p).reverse
      = ((lowerFrom before cs).reverse.dropWhile p).reverse := by
  generalize hreverse : cs.reverse = rs
  induction rs generalizing cs with
  | nil =>
    rw [List.reverse_eq_nil_iff.mp hreverse]
    rfl
  | cons c rs ih =>
    obtain rfl : cs = rs.reverse ++ [c] := by
      rw [← List.reverse_cons, ← hreverse, List.reverse_reverse]
    by_cases hc : p c = true
    · rw [List.dropWhile_cons_of_pos hc, lowerFrom_append_edge (hp c hc), List.reverse_append,
        List.reverse_singleton, List.singleton_append, List.dropWhile_cons_of_pos hc]
      exact ih rs.reverse (List.reverse_reverse rs)
    · obtain ⟨start, isFinal, h⟩ := lowerFrom_append before rs.reverse c
      rw [List.dropWhile_cons_of_neg hc, List.reverse_cons, h, List.reverse_append]
      cases hsmall : (small isFinal c).reverse with
      | nil => exact absurd (List.reverse_eq_nil_iff.mp hsmall) (small_ne_nil _ c)
      | cons d ds =>
        have hmem : d ∈ small isFinal c := List.mem_reverse.mp (hsmall ▸ List.mem_cons_self ..)
        have hd : ¬p d = true := not_of_mem_small hp hc hmem
        rw [List.cons_append, List.dropWhile_cons_of_neg hd, ← List.cons_append, ← hsmall,
          ← List.reverse_append, List.reverse_reverse]

end

end LetterCase

/-- Trimming and putting in lower case may be done in either order. -/
theorem Identifier.normalize_eq (identifier : String) :
    normalize identifier = trimmed (lower identifier) := by
  have hblank (c : Char) (h : Blank.isBlank c = true) : isEdge c = true := by
    rw [isEdge, h, Bool.true_or]
  have hbackslash (c : Char) (h : (c == '\\') = true) : isEdge c = true := by
    rw [isEdge, h, Bool.or_true]
  unfold normalize trimmed dropLeading Blank.strip lower Blank.dropEnd Blank.dropStart
  simp only [String.toList_ofList]
  rw [lowerFrom_dropWhile hbackslash rfl, lowerFrom_dropEnd hblank, lowerFrom_dropWhile hblank rfl]

/-- Identifiers that differ in letter case only have one key. -/
theorem Identifier.normalize_congr {a b : String} (h : lower a = lower b) :
    normalize a = normalize b := by rw [normalize_eq, normalize_eq, h]

/-! ## Resolving names -/

theorem startsWith_eq (s start : String) : s.startsWith start = start.toList.isPrefixOf s.toList := by
  rw [Bool.eq_iff_iff, String.startsWith_string_iff, List.isPrefixOf_iff_prefix]

/-- Resolving a name character by character, which can be evaluated. -/
theorem NameScope.resolve_eq (s : NameScope) (name : String) :
    s.resolve name =
      if "\\".toList.isPrefixOf name.toList then String.ofList (name.toList.drop 1)
      else if relativeWords.contains (lower name) then name
      else if namespaceMark.toList.isPrefixOf (lower name).toList then
        Identifier.qualify s.namespaceName (String.ofList (name.toList.drop namespaceMark.length))
      else match s.imports.find? (lower (headSegment name)) with
        | some path => path ++ tailSegments name
        | none => Identifier.qualify s.namespaceName name := by
  rw [← startsWith_eq, ← startsWith_eq]
  rfl

theorem NameScope.contains_relativeWords_iff {word : String} :
    relativeWords.contains word = true ↔ word = "self" ∨ word = "static" ∨ word = "parent" := by
  simp [relativeWords]

/-- A scope that names a class is none of the relative words, as references compare them. -/
theorem NameScope.not_relative {scope : String}
    (h : ¬relativeWords.contains (lower scope) = true) :
    ¬(lower scope == "self" || lower scope == "static") = true
      ∧ ¬(lower scope == "parent") = true := by
  rw [contains_relativeWords_iff] at h
  simp only [Bool.or_eq_true, beq_iff_eq]
  exact ⟨fun hself => h (hself.imp_right .inl), fun hparent => h (.inr (.inr hparent))⟩

end StaticReflection
