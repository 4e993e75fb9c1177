import StaticReflection.Proofs.Folding.Quoted
import StaticReflection.Proofs.Grammar.Reading
import StaticReflection.Proofs.Value.ReadBack

/-!
# Folding what was exported

The tree of a literal (`Grammar.Spells`) folds to the value that the literal has
(`Value.reread`), whatever the state, which stays as it is (`Folder.fold_spells`). With the
literal read by the grammar, an exported value is folded again:

> `Folder.fold_exported_iff`: wherever the literal of a built value stands as an expression, it is
> read as a whole, and folds to the value exactly if the value survives.
-/

namespace StaticReflection

open Grammar

/-! ## Kinds of literals -/

/-- The kinds of nodes of literals. -/
def literalKinds : List String :=
  ["null", "boolean", "integer", "unary_op_expression", "string", "array_creation_expression"]

section

variable {text : Node → String} {n : Node}

theorem Grammar.SpellsInt.kind_mem {m : Int} (h : SpellsInt text m n) : n.kind ∈ literalKinds := by
  unfold SpellsInt at h
  split at h
  · rw [h.1]
    decide
  · rw [h.1]
    decide

theorem Grammar.SpellsText.kind_mem {t : Text} (h : SpellsText text t n) :
    n.kind ∈ literalKinds := by
  rw [h.1]
  decide

theorem Grammar.SpellsKey.kind_mem {k : Key} (h : SpellsKey text k n) : n.kind ∈ literalKinds := by
  cases k with
  | int m => exact SpellsInt.kind_mem h
  | text t => exact SpellsText.kind_mem h

theorem Grammar.Spells.kind_mem {v : Value} (h : Spells text v n) : n.kind ∈ literalKinds := by
  have hkind {k : String} (h : n.kind = k) (hk : k ∈ literalKinds) : n.kind ∈ literalKinds :=
    h ▸ hk
  cases v with
  | null => exact hkind h (by decide)
  | bool b => exact hkind h.1 (by decide)
  | int m => exact SpellsInt.kind_mem h
  | float x => exact h.elim
  | constantNaN k => exact h.elim
  | text t => exact SpellsText.kind_mem h
  | list items => exact hkind h.1 (by decide)
  | map entries => exact hkind h.1 (by decide)

end

namespace Node

variable {e : Node} {Good GoodKey : Node → Prop}

/-- An element without a key is made of its value. -/
theorem elementPlan_item (h : IsItem Good e) (hkind : ∀ n, Good n → n.kind ∈ literalKinds) :
    ∃ item, Good item ∧ e.elementPlan = .plain item := by
  obtain ⟨-, item, hchildren, hnamed, hgood⟩ := h
  have hne (s : String) (hs : s ∉ literalKinds) : (item.kind == s) = false :=
    beq_eq_false_iff_ne.mpr fun he => hs (he ▸ hkind item hgood)
  have hnamedChildren : e.namedChildren = [item] := by
    unfold namedChildren
    rw [hchildren, List.filter_cons, if_pos hnamed, List.filter_nil]
  have hany (s : String) (hs : s ∉ literalKinds) : e.children.any (·.kind == s) = false := by
    rw [hchildren, List.any_cons, hne s hs]
    rfl
  have hspread : e.isSpread = false := by
    unfold isSpread
    rw [hany "..." (by decide), hnamedChildren]
    exact hne "variadic_unpacking" (by decide)
  refine ⟨item, hgood, ?_⟩
  unfold elementPlan
  rw [hspread, hany "=>" (by decide), hany "&" (by decide), hnamedChildren]
  rfl

/-- An element with a key is made of that and its value. -/
theorem elementPlan_entry (h : IsEntry GoodKey Good e)
    (hkey : ∀ n, GoodKey n → n.kind ∈ literalKinds) (hkind : ∀ n, Good n → n.kind ∈ literalKinds) :
    ∃ key item, GoodKey key ∧ Good item ∧ e.elementPlan = .keyed key item := by
  obtain ⟨-, key, arrow, item, hchildren, hkeyNamed, harrow, harrowNamed, hnamed, hgoodKey,
    hgood⟩ := h
  have hne {n : Node} (hn : n.kind ∈ literalKinds) (s : String) (hs : s ∉ literalKinds) :
      (n.kind == s) = false := beq_eq_false_iff_ne.mpr fun he => hs (he ▸ hn)
  have hnamedChildren : e.namedChildren = [key, item] := by
    unfold namedChildren
    rw [hchildren, List.filter_cons, if_pos hkeyNamed, List.filter_cons, harrowNamed,
      if_neg Bool.false_ne_true, List.filter_cons, if_pos hnamed, List.filter_nil]
  have hspread : e.isSpread = false := by
    unfold isSpread
    rw [hchildren, hnamedChildren, List.any_cons, List.any_cons, List.any_cons, List.any_nil,
      hne (hkey key hgoodKey) "..." (by decide), hne (hkind item hgood) "..." (by decide), harrow]
    exact hne (hkey key hgoodKey) "variadic_unpacking" (by decide)
  have harrows : e.children.any (·.kind == "=>") = true := by
    rw [hchildren, List.any_cons, List.any_cons, harrow]
    exact Bool.or_true _
  refine ⟨key, item, hgoodKey, hgood, ?_⟩
  unfold elementPlan
  rw [hspread, harrows, hnamedChildren]
  rfl

end Node

namespace Folder

variable {σ : Type} (F : Folder σ)

theorem lift_bind {α β : Type} (o : Outcome α) (g : α → Outcome β) :
    (Folding.lift o >>= fun a => Folding.lift (g a) : Folding σ β) = Folding.lift (o >>= g) := by
  cases o <;> rfl

/-! ## Scalars -/

theorem fold_digits {m : Nat} {n : Node} (h : SpellsDigits F.text m n) :
    F.fold n = Folding.lift (Literal.integer (String.ofList (Nat.toDigits 10 m))) := by
  rw [fold_eq, plan, h.1, h.2]
  rfl

theorem negate_int {k : Nat} (hk : (k : Int) ≤ intMax) (nodeType : String) :
    applyUnary "-" nodeType (.int k) = .ok (.int (-k)) := by
  have hfits : fitsInt (-k) = true := by
    unfold intMax at hk
    exact Value.fitsInt_iff.mpr (by omega)
  show Value.ofIntResult (-k) = _
  unfold Value.ofIntResult
  rw [if_pos hfits]

theorem negate_float (x : Float) (nodeType : String) :
    applyUnary "-" nodeType (.float x) = .ok (.float (-x)) := rfl

/-- The digits of an integer, with its sign, fold to what they are worth. -/
theorem fold_int {m : Int} {n : Node} (h : SpellsInt F.text m n) :
    F.fold n = Folding.lift (Value.rereadInt m) := by
  unfold SpellsInt at h
  unfold Value.rereadInt
  by_cases hm : m < 0
  · rw [if_pos hm] at h
    obtain ⟨hkind, sign, operand, hchildren, hfield, hunnamed, hsign, hnamed, hdigits⟩ := h
    have hplan : F.plan n = .unary "-" operand := by
      have hnamedChildren : n.namedChildren = [operand] := by
        unfold Node.namedChildren
        rw [hchildren, List.filter_cons, hunnamed, if_neg Bool.false_ne_true, List.filter_cons,
          if_pos hnamed, List.filter_nil]
      have hoperator : n.childInField? "operator" = some sign := by
        unfold Node.childInField?
        rw [hchildren, List.find?_cons, hfield]
        rfl
      rw [plan, hkind, hnamedChildren, hoperator, ← hsign]
      rfl
    rw [fold_eq, hplan]
    show (F.fold operand >>= fun v => Folding.lift (applyUnary "-" n.kind v)) = _
    rw [F.fold_digits hdigits, lift_bind, Literal.integer_toDigits]
    congr 1
    split
    · rfl
    split
    · cases Value.floatOfInt m.natAbs with
      | error f => rfl
      | ok x =>
        exact negate_float x n.kind
    next hsmall =>
      have hnegated : -(m.natAbs : Int) = m := by omega
      show applyUnary "-" n.kind (.int m.natAbs) = .ok (.int m)
      rw [negate_int (Int.not_lt.mp hsmall), hnegated]
  · rw [if_neg hm] at h
    have habs : (m.natAbs : Int) = m := Int.natAbs_of_nonneg (Int.not_lt.mp hm)
    rw [F.fold_digits h, Literal.integer_toDigits]
    simp only [if_neg hm, habs]

theorem fold_text {t : Text} (ht : t.isEncodable = true) {n : Node} (h : SpellsText F.text t n) :
    F.fold n = Folding.lift (.ok (.text t)) := by
  obtain ⟨s, rfl⟩ := Text.exists_ofString ht
  have htext : F.text n = String.ofList ([] ++ Quotes.single.quoted s) := by
    rw [h.2, Text.singleQuoted_ofString, Text.chars_ofString, String.toList_ofList]
    rfl
  exact F.fold_single (by decide) h.1 htext

theorem fold_key {k : Key} (hk : k.toValue.toText.isEncodable = true) {n : Node}
    (h : SpellsKey F.text k n) : F.fold n = Folding.lift k.reread := by
  cases k with
  | int m => exact F.fold_int h
  | text t => exact F.fold_text hk h

/-! ## Arrays -/

mutual

/-- The tree of a literal folds to the value that the literal has. -/
theorem fold_spells : (v : Value) → v.isEncodable = true → ∀ {n : Node}, Spells F.text v n →
    F.fold n = Folding.lift v.reread
  | .null, _, n, h => by
    have hkind : n.kind = "null" := h
    rw [fold_eq, plan, hkind]
    rfl
  | .bool b, _, n, h => by
    rw [fold_eq, plan, h.1, h.2]
    have hword : (LetterCase.lower (if b then "true" else "false") == "true") = b := by
      cases b <;> decide +kernel
    exact congrArg (fun b => Folding.lift (.ok (Value.bool b))) hword
  | .int m, _, n, h => F.fold_int h
  | .float _, _, _, h => h.elim
  | .constantNaN _, _, _, h => h.elim
  | .text t, ht, n, h => F.fold_text ht h
  | .list items, hitems, n, h => by
    rw [fold_eq, plan, h.1]
    show (F.foldElements n.arrayElements Accumulator.empty >>= fun a => pure a.value) = _
    rw [foldElements_items items hitems h.2]
    exact lift_bind _ fun a : Accumulator => .ok a.value
  | .map entries, hentries, n, h => by
    rw [fold_eq, plan, h.1]
    show (F.foldElements n.arrayElements Accumulator.empty >>= fun a => pure a.value) = _
    rw [foldElements_entries entries hentries h.2]
    exact lift_bind _ fun a : Accumulator => .ok a.value

theorem foldElements_items : (items : List Value) → Value.itemsAreEncodable items = true →
    ∀ {es : List Node} {acc : Accumulator}, SpellsItems F.text items es →
      F.foldElements es acc = Folding.lift (Value.rereadItems items acc)
  | [], _, es, acc, h => by
    obtain rfl : es = [] := h
    rw [foldElements_nil]
    rfl
  | v :: rest, hv, es, acc, h => by
    obtain ⟨e, others, rfl, hitem, hothers⟩ := h
    rw [Value.itemsAreEncodable, Bool.and_eq_true] at hv
    obtain ⟨item, hgood, hplan⟩ := Node.elementPlan_item hitem fun _ => Spells.kind_mem
    have helement : F.foldElement acc e = Folding.lift (do return acc.append (← v.reread)) := by
      unfold foldElement
      rw [hplan]
      show (F.fold item >>= fun w => pure (acc.append w)) = _
      rw [fold_spells v hv.1 hgood]
      exact lift_bind _ fun w => .ok (acc.append w)
    have hrest : F.foldElements others
        = fun a => Folding.lift (Value.rereadItems rest a) :=
      funext fun a => foldElements_items rest hv.2 hothers
    rw [foldElements_cons, helement, hrest, lift_bind, Value.rereadItems]
    cases v.reread <;> rfl

theorem foldElements_entries : (entries : List (Key × Value)) →
    Value.entriesAreEncodable entries = true →
    ∀ {es : List Node} {acc : Accumulator}, SpellsEntries F.text entries es →
      F.foldElements es acc = Folding.lift (Value.rereadEntries entries acc)
  | [], _, es, acc, h => by
    obtain rfl : es = [] := h
    rw [foldElements_nil]
    rfl
  | (k, v) :: rest, hv, es, acc, h => by
    obtain ⟨e, others, rfl, hentry, hothers⟩ := h
    rw [Value.entriesAreEncodable, Bool.and_eq_true, Bool.and_eq_true] at hv
    obtain ⟨key, item, hgoodKey, hgood, hplan⟩ :=
      Node.elementPlan_entry hentry (fun _ => SpellsKey.kind_mem) fun _ => Spells.kind_mem
    have helement : F.foldElement acc e
        = Folding.lift (k.reread >>= fun j => v.reread >>= fun w => acc.set j w) := by
      unfold foldElement
      rw [hplan]
      show (F.fold key >>= fun j => F.fold item >>= fun w => Folding.lift (acc.set j w)) = _
      rw [F.fold_key hv.1.1 hgoodKey, fold_spells v hv.1.2 hgood]
      simp only [lift_bind]
    have hrest : F.foldElements others
        = fun a => Folding.lift (Value.rereadEntries rest a) :=
      funext fun a => foldElements_entries rest hv.2 hothers
    rw [foldElements_cons, helement, hrest, lift_bind, Value.rereadEntries]
    simp only [bind_assoc]

end

/-! ## Exporting and folding again -/

/-- Wherever the literal of a built value stands as an expression, with the end of an expression
after it, the grammar reads it as a whole; and its tree folds to the value, in every state and
without changing it, exactly if the value survives. -/
theorem fold_exported_iff {v : Value} (hbuilt : v.Built) {t : Text} (hexport : v.exported = .ok t) :
    ∃ s, t.toString? = some s ∧
      ∀ {source : String} {after : List Char} {c : Cursor} {fuel : Nat} (level : Nat),
        c.In source.toList → c.Faces (s.toList ++ after) → Closes after → s.length ≤ fuel →
        ∃ n, (rules fuel).expression level c = some (n, (c.skip true).token s.length)
          ∧ ∀ {σ : Type} (F : Folder σ), F.text = (Source.ofString source).text → ∀ st : σ,
            ((F.fold n).outcome st = .ok v ↔ v.Survives) ∧ (F.fold n).after st = st := by
  have hshort : v.isShort = true ∧ t = v.literal := by
    unfold Value.exported at hexport
    split at hexport
    next hs => exact ⟨hs, (Except.ok.inj hexport).symm⟩
    next => cases hexport
  obtain ⟨hshort, rfl⟩ := hshort
  have hencodable : v.literal.isEncodable = true := v.literal_isEncodable.trans hbuilt.isEncodable
  obtain ⟨s, hs⟩ := Text.exists_ofString hencodable
  have hchars : v.literal.chars = s.toList := by rw [hs, Text.chars_ofString]
  refine ⟨s, by rw [hs, Text.toString?_ofString], ?_⟩
  intro source after c fuel level hin hfaces hafter hfuel
  have hlength : v.literal.chars.length = s.length := by rw [hchars, String.length_toList]
  obtain ⟨n, hn, -, hspells⟩ := reads_literal hbuilt (hlength.symm ▸ hfuel) level c after hin
    (hchars.symm ▸ hfaces) hafter
  refine ⟨n, hlength ▸ hn, fun F htext st => ?_⟩
  have hfold : F.fold n = Folding.lift v.reread := by
    refine F.fold_spells v hbuilt.isEncodable ?_
    rw [htext, ← String.ofList_toList (s := source)]
    exact hspells
  rw [hfold]
  exact ⟨hbuilt.reread_iff hshort, rfl⟩

/-- The map of a list with a negative integer in it, at a text key, and a truth value at an
integer key. -/
def nestedMap : Value :=
  .map [(.text (Text.ofString "it's"), .list [.null, .int (-5)]), (.int 7, .bool true)]

/-- The literal of that map, and the end of a statement. -/
def nestedSource : String := "['it\\'s' => [null, -5], 7 => true];"

theorem fold_exported_nestedMap : ∃ n,
    (rules 34).expression 0 (Cursor.start nestedSource.toList)
      = some (n, (Cursor.start nestedSource.toList).token 34)
      ∧ ∀ {σ : Type} (F : Folder σ), F.text = (Source.ofString nestedSource).text →
        ∀ st : σ, (F.fold n).outcome st = .ok nestedMap := by
  have hitems : (Value.list [.null, .int (-5)]).Built := by
    let a := (Accumulator.empty.append .null).append (.int (-5))
    have hentries : a.entries = [(.int 0, .null), (.int 1, .int (-5))] := rfl
    have hvalues : ∀ e ∈ a.entries, e.2.Built := by
      rw [hentries, List.forall_mem_cons, List.forall_mem_singleton]
      exact ⟨.null, .int rfl⟩
    exact .array (.append (.append .empty _) _) (fun e he => by
      rw [hentries] at he
      revert e
      decide +kernel) hvalues
  have hbuilt : nestedMap.Built := by
    let first : Accumulator :=
      ⟨[(.text (Text.ofString "it's"), .list [.null, .int (-5)])], 0⟩
    have hfirst : Accumulator.empty.set (.text (Text.ofString "it's")) (.list [.null, .int (-5)])
        = .ok first := rfl
    have hsecond : first.set (.int 7) (.bool true) = .ok (first.insert (.int 7) (.bool true)) := rfl
    have hentries : (first.insert (.int 7) (.bool true)).entries
        = [(.text (Text.ofString "it's"), .list [.null, .int (-5)]), (.int 7, .bool true)] := rfl
    refine .array (.set (.set .empty hfirst) hsecond) ?_ ?_
    · rw [hentries, List.forall_mem_cons, List.forall_mem_singleton]
      exact ⟨by decide +kernel, by decide +kernel⟩
    · rw [hentries, List.forall_mem_cons, List.forall_mem_singleton]
      exact ⟨hitems, .bool true⟩
  have hexport : nestedMap.exported = .ok nestedMap.literal := if_pos (by decide +kernel)
  obtain ⟨s, hs, hall⟩ := fold_exported_iff hbuilt hexport
  have htext : nestedMap.literal.toString? = some "['it\\'s' => [null, -5], 7 => true]" := by
    decide +kernel
  obtain rfl := Option.some.inj (htext.symm.trans hs)
  have hlength : "['it\\'s' => [null, -5], 7 => true]".length = 34 := by decide
  have hskip : (Cursor.start nestedSource.toList).skip true = Cursor.start nestedSource.toList :=
    Cursor.skip_of_extra?_eq_none rfl true
  obtain ⟨n, hn, hfold⟩ := hall 0 (c := Cursor.start nestedSource.toList) ⟨⟨[], rfl, rfl⟩, rfl⟩
    (.of_rest rfl rfl) (.inl (.sign (by decide))) (Nat.le_of_eq hlength)
  rw [hskip, hlength] at hn
  have hsurvives : nestedMap.Survives :=
    ⟨⟨trivial, trivial, show (-5 : Int) ≠ intMin by decide, trivial⟩,
      ⟨.inl (by decide), trivial⟩, trivial⟩
  exact ⟨n, hn, fun F htext st => (hfold F htext st).1.mpr hsurvives⟩

end Folder

end StaticReflection
