import StaticReflection.Proofs.Declaration.NameScope
import StaticReflection.Proofs.Reflection.Progress

/-!
# Classes that cannot be located

A reference to a class constant may come upon a class that no source declares. Where an
expression names the class, the reference counts as no constant; where a search among
relatives comes to it, the search goes on. One place does neither: a reference through
`parent` in a class whose parent is not found fails as the search for the parent does, and
so does every constant whose value contains such a reference, to any depth.

> `Store.resolveConstant_strays`: a reference fails because a class is not found if and
> only if it strays (`World.Strays`), with the failure of the missing parent.

Where all parents that classes name are found no reference fails so.
-/

namespace StaticReflection

open Folding Outcome Reflector Store

namespace World

variable (w : World)

/-- A reference in a class leads to a class. -/
inductive RefersTo (c : ReflectedClass) (scope : String) : ReflectedClass → Prop
  | itself (h : LetterCase.lower scope = "self" ∨ LetterCase.lower scope = "static") :
      RefersTo c scope c
  | parent {d : ReflectedClass} (h : LetterCase.lower scope = "parent")
      (hd : w.parent? c = .ok (some d)) : RefersTo c scope d
  | named {d : ReflectedClass}
      (h : ¬NameScope.relativeWords.contains (LetterCase.lower scope) = true)
      (hd : w.answer (c.resolveName scope) = .ok d) : RefersTo c scope d

/-- While some constants are being folded, a reference in a class comes to the parent of a
class, which is not found. -/
inductive Strays : List ConstantKey → ReflectedClass → String → String → Failure → Prop
  /-- The class itself names a parent that is not found. -/
  | orphan {L : List ConstantKey} {c : ReflectedClass} {scope constant name : String}
      {f : Failure} (h : LetterCase.lower scope = "parent") (hname : c.parentName? = some name)
      (hans : w.answer name = .error f) : Strays L c scope constant f
  /-- The value of the constant contains a reference that strays. -/
  | within {L : List ConstantKey} {c d : ReflectedClass}
      {scope constant scope' constant' : String} {k : ConstantDeclaration} {m : Node} {t : Store}
      {f : Failure} (hd : w.RefersTo c scope d) (hname : ¬asksForName constant = true)
      (hk : d.constant? constant = some k) (hfree : (d.key, constant) ∉ L)
      (hm : (folderWith none d d.source []).Reaches k.value
        (amid w [] ((d.key, constant) :: L)) m t)
      (hplan : (folderWith none d d.source []).plan m = .constant scope' constant')
      (hs : Strays ((d.key, constant) :: L) d scope' constant' f) : Strays L c scope constant f

/-- What a reference in a class comes to, by what the constant is in the class that it
leads to. -/
def referred (valueOf : ReflectedClass → Outcome Value) (c : ReflectedClass)
    (scope constant : String) : Outcome Value :=
  let finish (target : ReflectedClass) : Outcome Value :=
    if asksForName constant then .ok (Value.ofString target.name) else valueOf target
  let lowered := LetterCase.lower scope
  if lowered == "self" || lowered == "static" then finish c
  else if lowered == "parent" then
    w.parent? c >>= fun found =>
      match found with
      | some d => finish d
      | none => Outcome.unfoldable (.noParent c.name constant)
  else if asksForName constant then .ok (Value.ofString (c.resolveName scope))
  else
    match w.answer (c.resolveName scope) with
    | .ok d => valueOf d
    | .error _ => Outcome.unfoldable (.classNotLocated (c.resolveName scope) scope constant)

variable {w}

theorem RefersTo.find? {c d : ReflectedClass} {scope : String} (h : w.RefersTo c scope d)
    (hc : w.find? c.key = some c) : w.find? d.key = some d := by
  cases h with
  | itself _ => exact hc
  | parent _ hd => exact (has_of_parent? (K := []) hd).1
  | named _ hd => exact find?_key_of_answer hd

end World

section

variable {w : World} {L : List ConstantKey} {K : List String} {s : Store}

/-! ## References -/

/-- References come to what `World.referred` says of them. -/
theorem resolveConstantWith_comes (hw : w.IsStatic)
    {valueIn : ReflectedClass → String → Query Value} {valueOf : ReflectedClass → Outcome Value}
    {c : ReflectedClass} (hc : w.find? c.key = some c) {constant : String}
    (hvalue : ∀ d, w.find? d.key = some d →
      Comes (Within w L K) (valueIn d constant) (valueOf d) (Within w L K)) (scope : String) :
    Comes (Within w L K) (resolveConstantWith valueIn c scope constant)
      (w.referred valueOf c scope constant) (Within w L K) := by
  have finish (d : ReflectedClass) (hd : w.find? d.key = some d) :
      Comes (Within w L K)
        (if asksForName constant then pure (Value.ofString d.name) else valueIn d constant)
        (if asksForName constant then .ok (Value.ofString d.name) else valueOf d)
        (Within w L K) := by
    split
    · exact .pure
    · exact hvalue d hd
  unfold resolveConstantWith World.referred
  simp only
  split
  · exact finish c hc
  · split
    · refine (parent_comes hw c).bind fun found hfound => ?_
      cases found with
      | none => exact .throw
      | some d => exact finish d (World.has_of_parent? (K := K) hfound).1
    · split
      · exact .pure
      · have hreflect := reflect_comes (L := L) (K := K) hw (c.resolveName scope)
        cases hans : w.answer (c.resolveName scope) with
        | ok d =>
          rw [hans] at hreflect
          exact hreflect.tryCatch_ok.bind_ok (hvalue d (World.find?_key_of_answer hans))
        | error f =>
          rw [hans] at hreflect
          refine (hreflect.tryCatch_error ?_).bind_error
          rw [if_pos (World.isNotFound_of_answer hans)]
          exact .throw

/-- A reference through the name of a class that is not found counts as no constant. -/
theorem resolveConstant_unlocated (hw : w.IsStatic) {c : ReflectedClass}
    (hc : w.find? c.key = some c) (hs : s.Within w L K) {scope constant : String} {f : Failure}
    (hscope : ¬NameScope.relativeWords.contains (LetterCase.lower scope) = true)
    (hasks : ¬asksForName constant = true) (hans : w.answer (c.resolveName scope) = .error f) :
    outcome (resolveConstant c scope constant) s
      = .error (.unfoldable (.classNotLocated (c.resolveName scope) scope constant)) := by
  have hvalue (d : ReflectedClass) (hd : w.find? d.key = some d) :
      Comes (Within w L K) (constantValue d constant) (outcome (constantValue d constant) s)
        (Within w L K) :=
    (constantValue_agree (p := fun _ => true) hw (fun _ _ => rfl) (.inl rfl) hd constant).comes hs
  rw [resolveConstant, (resolveConstantWith_comes hw hc hvalue scope s hs).1]
  obtain ⟨hself, hparent⟩ := NameScope.not_relative hscope
  unfold World.referred
  rw [if_neg hself, if_neg hparent, if_neg hasks, hans]
  rfl

theorem World.parent?_error_iff {c : ReflectedClass} {f : Failure} :
    w.parent? c = .error f ↔ ∃ name, c.parentName? = some name ∧ w.answer name = .error f := by
  unfold parent?
  cases c.parentName? with
  | none => simp
  | some name =>
    show (w.answer name >>= fun d => Except.ok (some d)) = .error f ↔ _
    cases hans : w.answer name with
    | error g => simp [Outcome.error_bind, hans]
    | ok d => simp [Outcome.ok_bind, hans]

/-- A reference fails because a class is not found if the parent that it names is not, or
if so fails the constant of the class that it leads to. -/
theorem World.referred_notFound_iff {valueOf : ReflectedClass → Outcome Value}
    {c : ReflectedClass} {scope constant : String} {f : Failure} (hf : f.isNotFound = true) :
    w.referred valueOf c scope constant = .error f
      ↔ (LetterCase.lower scope = "parent" ∧ ∃ name, c.parentName? = some name
          ∧ w.answer name = .error f)
        ∨ ¬asksForName constant = true ∧ ∃ d, w.RefersTo c scope d ∧ valueOf d = .error f := by
  have finish (d : ReflectedClass) :
      (if asksForName constant = true then Except.ok (Value.ofString d.name) else valueOf d)
          = .error f ↔ ¬asksForName constant = true ∧ valueOf d = .error f := by
    by_cases h : asksForName constant = true
    · simp [h]
    · simp [h]
  unfold referred
  simp only [Bool.or_eq_true, beq_iff_eq]
  by_cases hself : LetterCase.lower scope = "self" ∨ LetterCase.lower scope = "static"
  · -- the words exclude each other, so this is no reference through the parent
    have hparent : LetterCase.lower scope ≠ "parent" := by
      rintro heq
      rw [heq] at hself
      simp at hself
    rw [if_pos hself, finish]
    constructor
    · rintro ⟨hname, hv⟩
      exact .inr ⟨hname, c, .itself hself, hv⟩
    · rintro (⟨h, _⟩ | ⟨hname, d, hd, hv⟩)
      · exact absurd h hparent
      · cases hd with
        | itself _ => exact ⟨hname, hv⟩
        | parent h _ => exact absurd h hparent
        | named h _ => rcases hself with h' | h' <;> exact absurd (by rw [h']; decide) h
  · rw [if_neg hself]
    by_cases hparent : LetterCase.lower scope = "parent"
    · rw [if_pos hparent]
      rw [← parent?_error_iff]
      constructor
      · intro h
        cases hfound : w.parent? c with
        | error g => rw [hfound] at h; cases h; exact .inl ⟨hparent, rfl⟩
        | ok found =>
          rw [hfound] at h
          cases found with
          | none => cases h; cases hf
          | some d =>
            obtain ⟨hasks, hv⟩ := (finish d).mp h
            exact .inr ⟨hasks, d, .parent hparent hfound, hv⟩
      · rintro (⟨_, hmissing⟩ | ⟨hasks, d, hd, hv⟩)
        · rw [hmissing]
          rfl
        · cases hd with
          | itself h => exact absurd h hself
          | parent _ hd => rw [hd]; exact (finish d).mpr ⟨hasks, hv⟩
          | named h _ => exact absurd (by rw [hparent]; decide) h
    · rw [if_neg hparent]
      have hnamed : ¬NameScope.relativeWords.contains (LetterCase.lower scope) = true := by
        rw [NameScope.contains_relativeWords_iff]
        rintro (h | h | h)
        · exact hself (.inl h)
        · exact hself (.inr h)
        · exact hparent h
      by_cases hasks : asksForName constant = true
      · simp [hasks, hparent]
      · rw [if_neg hasks]
        constructor
        · intro h
          cases hans : w.answer (c.resolveName scope) with
          | error g => rw [hans] at h; cases h; cases hf
          | ok d => rw [hans] at h; exact .inr ⟨hasks, d, .named hnamed hans, h⟩
        · rintro (⟨h, _⟩ | ⟨_, d, hd, hv⟩)
          · exact absurd h hparent
          · cases hd with
            | itself h => exact absurd h hself
            | parent h _ => exact absurd h hparent
            | named _ hd => rw [hd]; exact hv

/-! ## Constants -/

/-- A search among relatives does not fail because a class is not found. -/
theorem firstRelative_found {valueIn : ReflectedClass → Query Value} {failure f : Failure}
    (hfailure : failure.isNotFound = false) {names : List String}
    (h : outcome (firstRelative valueIn failure names) s = .error f) : f.isNotFound = false := by
  induction names generalizing s with
  | nil => cases h; exact hfailure
  | cons name rest ih =>
    unfold firstRelative at h
    rw [outcome_tryCatch] at h
    split at h
    · cases h
    next g hg =>
      split at h
      · exact ih h
      next hpassed =>
        cases h
        simp at hpassed
        exact hpassed.1

/-- The fuel of a request that is given enough makes no difference. -/
theorem constantWithin_agree_constantValue (hw : w.IsStatic) {m : Nat} (hm : w.bound L [] < m)
    {c : ReflectedClass} (hc : w.find? c.key = some c) (name : String) :
    Agree (Twin (Within w L K)) (FailsOnly fun _ => true) (constantWithin m [] c name)
      (constantValue c name) := by
  intro t t' ht
  obtain ⟨hsame, hgood, hafter⟩ := constantWithin_agree (p := fun _ => true) hw (fun _ _ => rfl)
    (.inl ⟨rfl, rfl⟩) hc hm (ht.2.coherent.bound_lt_depth L []) .nil .nil t t' ht
  obtain ⟨hvalue, hstore⟩ := depth_bind (fun n => constantWithin n [] c name) t'
  exact ⟨hsame.trans hvalue.symm, hgood, by rw [constantValue, hstore]; exact hafter⟩

/-- A constant fails because a class is not found if its class declares it, it is not being
folded, and so fails the fold of its value. -/
theorem constantValue_notFound_iff (hw : w.IsStatic) {c : ReflectedClass}
    (hc : w.find? c.key = some c) {name : String} {f : Failure} (hf : f.isNotFound = true)
    (hs : s.Within w L []) :
    outcome (constantValue c name) s = .error f
      ↔ ∃ k, c.constant? name = some k ∧ (c.key, name) ∉ L
        ∧ outcome ((folderWith none c c.source []).fold k.value)
          (amid w [] ((c.key, name) :: L)) = .error f := by
  have hbound := hs.coherent.bound_lt_depth L []
  obtain ⟨fuel, hfuel⟩ := Nat.exists_eq_add_one.mpr (Nat.zero_lt_of_lt hbound)
  rw [outcome_constantValue, hfuel, constantWithin]
  cases hk : c.constant? name with
  | none =>
    simp only [reduceCtorEq, false_and, exists_false, iff_false]
    rw [if_neg (by exact Bool.false_ne_true)]
    intro h
    rw [firstRelative_found rfl h] at hf
    cases hf
  | some k =>
    by_cases hmem : (c.key, name) ∈ L
    · rw [(whileFolding_busy (by rw [hs.folding]; exact List.contains_iff_mem.mpr hmem)).1]
      constructor
      · intro h
        cases h
        cases hf
      · rintro ⟨_, _, hfree, _⟩
        exact absurd hmem hfree
    · have hless := World.bound_fold_lt
        (World.mem_knownConstants (World.mem_classes_of_find? hc) hk) hmem []
      have hfold := Folder.fold_agree (p := fun _ => true) (fun _ _ => rfl) (fun scope constant =>
        resolveConstantWith_agree (L := (c.key, name) :: L) (K := []) hw (fun _ _ => rfl) hc
          (fun d other hd => constantWithin_agree_constantValue hw (m := fuel) (by omega) hd other)
          scope constant) (folder c c.source (resolveConstant c) []) k.value
      have hfree : ¬s.folding.contains (c.key, name) = true := by
        rw [hs.folding]
        exact fun h => hmem (List.contains_iff_mem.mp h)
      have hsame := (hfold (s.enter (c.key, name)) (amid w [] ((c.key, name) :: L))
        ⟨hs.enter _, (within_amid hw [] _).mono fun _ h => absurd h List.not_mem_nil⟩).1
      rw [(whileFolding_free hfree).1]
      constructor
      · intro h
        exact ⟨k, rfl, hmem, hsame.symm.trans h⟩
      · rintro ⟨_, heq, _, h⟩
        cases heq
        exact hsame.trans h

/-! ## References that stray -/

/-- Folds in a class keep stores coherent. -/
theorem fold_within (hw : w.IsStatic) {c : ReflectedClass} (hc : w.find? c.key = some c)
    (n : Node) : Preserves (Within w L []) ((folderWith none c c.source []).fold n) := by
  refine Folder.fold_preserves (fun scope constant => ?_) (folderWith none c c.source []) n
  apply Agree.preserves
  exact resolveConstantWith_agree (p := fun _ => true) hw (fun _ _ => rfl) hc
    (fun d other hd => constantValue_agree hw (fun _ _ => rfl) (.inl rfl) hd other) scope constant

/-- A fold in a class fails because a class is not found if it reaches a reference that
fails so. -/
theorem fold_notFound_iff (hw : w.IsStatic) {c : ReflectedClass} (hc : w.find? c.key = some c)
    {n : Node} {f : Failure} (hf : f.isNotFound = true) (hs : s.Within w L []) :
    outcome ((folderWith none c c.source []).fold n) s = .error f
      ↔ ∃ m t scope constant, (folderWith none c c.source []).Reaches n s m t
        ∧ t.Within w L [] ∧ (folderWith none c c.source []).plan m = .constant scope constant
        ∧ outcome (resolveConstant c scope constant) t = .error f := by
  rw [Folder.fold_error_iff]
  constructor
  · rintro ⟨m, t, hm, halone⟩
    rcases halone.ofFolding with hown | ⟨scope, constant, hplan, ho⟩
    · rw [Failure.not_isNotFound_of_ofFolding f hown] at hf
      cases hf
    · exact ⟨m, t, scope, constant, hm, hm.preserves (fold_within hw hc) hs, hplan, ho⟩
  · rintro ⟨m, t, scope, constant, hm, _, hplan, ho⟩
    exact ⟨m, t, hm, .constant hplan ho⟩

/-- A reference fails because a class is not found exactly if it strays. -/
theorem resolveConstant_notFound_iff (hw : w.IsStatic) {c : ReflectedClass}
    (hc : w.find? c.key = some c) {scope constant : String} {f : Failure}
    (hf : f.isNotFound = true) (hs : s.Within w L []) :
    outcome (resolveConstant c scope constant) s = .error f ↔ w.Strays L c scope constant f := by
  -- each fold leaves one constant less that is not being folded
  induction hsize : unused w.knownConstants L using Nat.strongRecOn
    generalizing L c scope constant s with
  | ind size ih =>
    have hvalue (d : ReflectedClass) (hd : w.find? d.key = some d) :
        Comes (Within w L []) (constantValue d constant) (outcome (constantValue d constant) s)
          (Within w L []) :=
      (constantValue_agree (p := fun _ => true) hw (fun _ _ => rfl) (.inl rfl) hd constant).comes hs
    have hreferred := (resolveConstantWith_comes hw hc hvalue scope s hs).1
    rw [resolveConstant, hreferred, World.referred_notFound_iff hf]
    have hless {d : ReflectedClass} {k : ConstantDeclaration} (hd : w.find? d.key = some d)
        (hk : d.constant? constant = some k) (hfree : (d.key, constant) ∉ L) :
        unused w.knownConstants ((d.key, constant) :: L) < size :=
      hsize ▸ unused_cons_lt (World.mem_knownConstants (World.mem_classes_of_find? hd) hk) hfree
    have hamid (d : ReflectedClass) : (amid w [] ((d.key, constant) :: L)).Within w
        ((d.key, constant) :: L) [] :=
      (within_amid hw [] _).mono fun _ h => absurd h List.not_mem_nil
    constructor
    · rintro (⟨hparent, name, hname, hans⟩ | ⟨hasks, d, hd, hv⟩)
      · exact .orphan hparent hname hans
      · have hfind := hd.find? hc
        obtain ⟨k, hk, hfree, hfold⟩ := (constantValue_notFound_iff hw hfind hf hs).mp hv
        obtain ⟨m, t, scope', constant', hm, ht, hplan, ho⟩ :=
          (fold_notFound_iff hw hfind hf (hamid d)).mp hfold
        exact .within hd hasks hk hfree hm hplan
          ((ih _ (hless hfind hk hfree) hfind ht rfl).mp ho)
    · intro h
      cases h with
      | orphan hparent hname hans => exact .inl ⟨hparent, _, hname, hans⟩
      | within hd hasks hk hfree hm hplan hstrays =>
        have hfind := hd.find? hc
        have ht := hm.preserves (fold_within hw hfind) (hamid _)
        refine .inr ⟨hasks, _, hd, (constantValue_notFound_iff hw hfind hf hs).mpr ?_⟩
        refine ⟨_, hk, hfree, (fold_notFound_iff hw hfind hf (hamid _)).mpr ?_⟩
        exact ⟨_, _, _, _, hm, ht, hplan, (ih _ (hless hfind hk hfree) hfind ht rfl).mpr hstrays⟩

/-- A reference that strays came to a class that names a parent which is not found. -/
theorem World.Strays.exists_orphan {c : ReflectedClass} {scope constant : String} {f : Failure}
    (h : w.Strays L c scope constant f) (hc : w.find? c.key = some c) :
    ∃ d ∈ w.classes, ∃ name, d.parentName? = some name ∧ w.answer name = .error f := by
  induction h with
  | orphan _ hname hans => exact ⟨_, mem_classes_of_find? hc, _, hname, hans⟩
  | within hd _ _ _ _ _ _ ih => exact ih (hd.find? hc)

end

/-- Over sources that do not change, after any calls and amid any folds: a reference in a
class fails because a class is not found exactly if it strays, with the failure of the
missing parent. So none fails so where every parent that a class names is found. -/
theorem Store.resolveConstant_strays (w : World) (hw : w.IsStatic) (calls : List Call)
    (L : List ConstantKey) (c : ReflectedClass) (hc : w.find? c.key = some c)
    (scope constant : String) :
    (∀ f, f.isNotFound = true →
        (outcome (resolveConstant c scope constant) (amid w calls L) = .error f
          ↔ w.Strays L c scope constant f))
      ∧ ((∀ d ∈ w.classes, ∀ name, d.parentName? = some name → (w.answer name).isOk = true) →
        (outcome (resolveConstant c scope constant) (amid w calls L)).FailsOnly
          fun f => !f.isNotFound) := by
  have hs : (amid w calls L).Within w L [] :=
    (within_amid hw calls L).mono fun _ h => absurd h List.not_mem_nil
  refine ⟨fun f hf => resolveConstant_notFound_iff hw hc hf hs, ?_⟩
  intro hparents f hfails
  by_cases hf : f.isNotFound = true
  · have hstrays := (resolveConstant_notFound_iff hw hc hf hs).mp hfails
    obtain ⟨d, hd, name, hname, hans⟩ := hstrays.exists_orphan hc
    have hok := hparents d hd name hname
    rw [hans] at hok
    cases hok
  · simpa using hf

/-! ## A class without its parent -/

/-- A text with a class whose parent is nowhere, and which refers to it. -/
def orphanText : String := "<?php class A extends B \x7b const X = parent::Y; \x7d"

/-- The reference in `orphanText`. -/
def orphanReference : Node :=
  ⟨"class_constant_access_expression", 36, 45, none, true, false,
    [⟨"relative_scope", 36, 42, none, true, false, []⟩, ⟨"name", 44, 45, none, true, false, []⟩]⟩

/-- The declaration in `orphanText`. -/
def orphanClass : Node :=
  ⟨"class_declaration", 6, 48, none, true, false,
    [⟨"class", 6, 11, none, false, false, []⟩, ⟨"name", 12, 13, some "name", true, false, []⟩,
      ⟨"base_clause", 14, 23, none, true, false, [⟨"name", 22, 23, none, true, false, []⟩]⟩,
      ⟨"declaration_list", 24, 48, some "body", true, false,
        [⟨"const_declaration", 26, 46, none, true, false,
          [⟨"const_element", 32, 45, none, true, false,
            [⟨"name", 32, 33, none, true, false, []⟩, orphanReference]⟩]⟩]⟩]⟩

/-- A world with nothing but that class. -/
def orphanWorld : World :=
  ⟨FileTree.empty [], [(orphanText, ⟨"program", 0, 48, none, true, false, [orphanClass]⟩)],
    [.text orphanText "<string>"], []⟩

/-- The class in that world. -/
def orphan : ReflectedClass :=
  ⟨⟨⟨orphanClass, []⟩, .classKind, "A", NameScope.empty⟩,
    orphanWorld.trees.parse orphanText "<string>"⟩

theorem classes_orphanWorld : orphanWorld.classes = [orphan] := by
  have hsources : orphanWorld.sources = [orphan.source] := rfl
  have hchildren : orphan.source.root.children = [orphanClass] := rfl
  have hwalk : ClassLike.all orphan.source = [orphan.classLike] := by
    rw [ClassLike.all, hchildren, ClassLike.walk, ClassLike.walk]
    rfl
  rw [World.classes, hsources, List.flatMap_singleton, World.classesIn, hwalk]
  rfl

theorem isStatic_orphanWorld : orphanWorld.IsStatic := World.isStatic_of_text rfl

theorem find?_orphan : orphanWorld.find? orphan.key = some orphan := by
  rw [World.find?, classes_orphanWorld]
  rfl

theorem parentName?_orphan : orphan.parentName? = some "B" := by
  have hclause : orphan.parentName? = some (NameScope.empty.resolve "B") := rfl
  rw [hclause, NameScope.resolve_eq]
  rfl

theorem resolveName_orphan : orphan.resolveName "B" = "B" := by
  show NameScope.empty.resolve "B" = "B"
  rw [NameScope.resolve_eq]
  rfl

theorem answer_missing : orphanWorld.answer "B" = .error (.classNotFound "B") := by
  have hnone : orphanWorld.find? (Identifier.normalize "B") = none := by
    rw [World.find?, classes_orphanWorld]
    rfl
  rw [World.answer, hnone]
  rfl

/-- The constant of the class fails as the search for the parent does, after it was asked
for once; the same constant asked of the parent by name counts as no constant. -/
theorem resolveConstant_strays_orphan :
    orphanWorld.IsStatic ∧ orphanWorld.find? orphan.key = some orphan
      ∧ orphanWorld.Strays [] orphan "self" "X" (.classNotFound "B")
      ∧ outcome (resolveConstant orphan "self" "X")
          (amid orphanWorld [.constantValue (.named "A") "X"] [])
        = .error (.classNotFound "B")
      ∧ outcome (resolveConstant orphan "B" "Y") (amid orphanWorld [] [])
        = .error (.unfoldable (.classNotLocated "B" "B" "Y")) := by
  have hparent : orphanWorld.Strays [("a", "X")] orphan "parent" "Y" (.classNotFound "B") :=
    .orphan rfl parentName?_orphan answer_missing
  have hself : orphanWorld.Strays [] orphan "self" "X" (.classNotFound "B") := by
    refine .within (k := ⟨"X", orphanReference⟩) (.itself (.inl rfl)) ?_ rfl ?_ .refl rfl hparent
    · decide
    · exact List.not_mem_nil
  refine ⟨isStatic_orphanWorld, find?_orphan, hself, ?_, ?_⟩
  · exact ((Store.resolveConstant_strays orphanWorld isStatic_orphanWorld
      [.constantValue (.named "A") "X"] [] orphan find?_orphan "self" "X").1 _ rfl).mpr hself
  · have hmissing : orphanWorld.answer (orphan.resolveName "B") = .error (.classNotFound "B") := by
      rw [resolveName_orphan]
      exact answer_missing
    have hasks : ¬asksForName "Y" = true := by decide
    have hunlocated := resolveConstant_unlocated isStatic_orphanWorld find?_orphan within_ofWorld
      (by decide) hasks hmissing
    rw [resolveName_orphan] at hunlocated
    exact hunlocated

end StaticReflection
