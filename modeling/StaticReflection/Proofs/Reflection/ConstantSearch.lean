import StaticReflection.Proofs.Reflection.Ancestors
import StaticReflection.Proofs.Reflection.Steps

/-!
# Searching and folding class constants

Folding a constant asks for other constants, and a constant that a class lacks is searched
in its relatives. Each fold adds a constant that was not being folded, and each step of a
search a class that was not searched, so the fuel that a store gives is never used up:

> `constantWithin_agree`: with more fuel than `World.bound`, whatever the store, the value
> of a constant comes to the same outcome, and is a failure without end only if a class is
> its own relative.

The bound counts constants that are not being folded first and classes that are not
searched second: a fold begins its searches anew, with one constant less to go.
-/

namespace StaticReflection

open Folding Outcome Reflector Store

/-- A constant of a class may be inherited from another. -/
def World.Relative (w : World) (c d : ReflectedClass) : Prop :=
  ∃ name ∈ c.relatedNames, w.answer name = .ok d

/-- No class inherits constants from itself, directly or not. -/
def World.IsAcyclic (w : World) : Prop := ∀ c, ¬Relation.TransGen w.Relative c c

namespace World

variable {w : World}

/-- What a class may inherit constants from is found under its key. -/
theorem Relative.find?_key {c d : ReflectedClass} (h : w.Relative c d) :
    w.find? d.key = some d := by
  obtain ⟨_, _, hans⟩ := h
  exact find?_key_of_answer hans

/-- No class inherits from itself where each class has a rank above those of its relatives. -/
theorem isAcyclic_of_rank (rank : ReflectedClass → Nat)
    (h : ∀ c ∈ w.classes, ∀ d, w.Relative c d → rank d < rank c) : w.IsAcyclic := by
  have hpath {c d : ReflectedClass} (hc : c ∈ w.classes) (hcd : Relation.TransGen w.Relative c d) :
      d ∈ w.classes ∧ rank d < rank c := by
    induction hcd with
    | single hstep => exact ⟨mem_classes_of_find? hstep.find?_key, h _ hc _ hstep⟩
    | tail _ hstep ih =>
      exact ⟨mem_classes_of_find? hstep.find?_key, Nat.lt_trans (h _ ih.1 _ hstep) ih.2⟩
  intro c hcycle
  -- a class that a path leads to is one of the sources
  have hc : c ∈ w.classes := by
    cases hcycle with
    | single hstep => exact mem_classes_of_find? hstep.find?_key
    | tail _ hstep => exact mem_classes_of_find? hstep.find?_key
  exact Nat.lt_irrefl _ (hpath hc hcycle).2

/-- The classes with some keys all inherit constants from a class. -/
def LeadsFrom (w : World) (searched : List String) (c : ReflectedClass) : Prop :=
  ∀ k ∈ searched, ∃ d, w.find? k = some d ∧ Relation.TransGen w.Relative d c

theorem LeadsFrom.nil {c : ReflectedClass} : w.LeadsFrom [] c := fun _ h => by cases h

theorem LeadsFrom.step {searched : List String} {c d : ReflectedClass}
    (h : w.LeadsFrom searched c) (hc : w.find? c.key = some c) (hstep : w.Relative c d) :
    w.LeadsFrom (c.key :: searched) d := by
  intro k hk
  rcases List.mem_cons.mp hk with rfl | hk
  · exact ⟨c, hc, .single hstep⟩
  · obtain ⟨e, he, hpath⟩ := h k hk
    exact ⟨e, he, .tail hpath hstep⟩

/-- Where no class inherits from itself a search does not come back to a class. -/
theorem LeadsFrom.not_mem {searched : List String} {c : ReflectedClass}
    (h : w.LeadsFrom searched c) (hacyclic : w.IsAcyclic) (hc : w.find? c.key = some c) :
    c.key ∉ searched := by
  intro hmem
  obtain ⟨d, hd, hpath⟩ := h _ hmem
  rw [hc] at hd
  cases hd
  exact hacyclic c hpath

/-- One constant less to go pays for searching all classes again. -/
theorem bound_fold_lt {L : List ConstantKey} {k : ConstantKey} (hk : k ∈ w.knownConstants)
    (hfree : k ∉ L) (searched : List String) : w.bound (k :: L) [] < w.bound L searched := by
  have hless := unused_cons_lt hk hfree
  have hall : unused w.knownKeys [] ≤ w.knownKeys.length := unused_le_length
  unfold bound
  calc unused w.knownConstants (k :: L) * (w.knownKeys.length + 1) + unused w.knownKeys []
      < (unused w.knownConstants (k :: L) + 1) * (w.knownKeys.length + 1) := by
        rw [Nat.succ_mul]
        omega
    _ ≤ unused w.knownConstants L * (w.knownKeys.length + 1) := Nat.mul_le_mul_right _ hless
    _ ≤ _ := Nat.le_add_right _ _

theorem bound_search_lt {L : List ConstantKey} {searched : List String} {c : ReflectedClass}
    (hc : c ∈ w.classes) (hnew : c.key ∉ searched) :
    w.bound L (c.key :: searched) < w.bound L searched :=
  Nat.add_lt_add_left (unused_cons_lt (key_mem_knownKeys hc) hnew) _

end World

/-! ## Folds in progress -/

namespace Store

variable {w : World} {L : List ConstantKey} {K : List String} {s : Store}

theorem Within.enter (h : s.Within w L K) (k : ConstantKey) : (s.enter k).Within w (k :: L) K :=
  ⟨h.coherent.refold _, congrArg (k :: ·) h.folding, h.kept⟩

theorem Within.leave {k : ConstantKey} (h : s.Within w (k :: L) K) : (s.leave k).Within w L K := by
  refine ⟨h.coherent.refold _, ?_, h.kept⟩
  show s.folding.erase k = L
  rw [h.folding, List.erase_cons_head]

end Store

section

variable {w : World} {L : List ConstantKey} {K : List String} {p : Failure → Bool}

theorem whileFolding_agree {α : Type} {k : ConstantKey} {again : Failure} {q q' : Query α}
    (hagain : p again = true)
    (h : k ∉ L → Agree (Twin (Within w (k :: L) K)) (FailsOnly p) q q') :
    Agree (Twin (Within w L K)) (FailsOnly p) (Query.whileFolding k again q)
      (Query.whileFolding k again q') := by
  intro s s' hs
  unfold AgreeAt
  by_cases hk : L.contains k = true
  · have hbusy : s.folding.contains k = true := by rw [hs.1.folding]; exact hk
    have hbusy' : s'.folding.contains k = true := by rw [hs.2.folding]; exact hk
    rw [(whileFolding_busy hbusy).1, (whileFolding_busy hbusy).2, (whileFolding_busy hbusy').1,
      (whileFolding_busy hbusy').2]
    exact ⟨rfl, failsOnly_error hagain, hs⟩
  · have hfree : ¬s.folding.contains k = true := by rw [hs.1.folding]; exact hk
    have hfree' : ¬s'.folding.contains k = true := by rw [hs.2.folding]; exact hk
    obtain ⟨he, hgood, hafter⟩ := h (fun hmem => hk (List.contains_iff_mem.mpr hmem)) _ _
      ⟨hs.1.enter k, hs.2.enter k⟩
    rw [(whileFolding_free hfree).1, (whileFolding_free hfree).2, (whileFolding_free hfree').1,
      (whileFolding_free hfree').2]
    exact ⟨he, hgood, hafter.1.leave, hafter.2.leave⟩

/-! ## Searching relatives -/

theorem reflect_agree (hw : w.IsStatic) (identifier : String) :
    Agree (Twin (Within w L K)) (fun o => w.answer identifier = o) (reflect identifier)
      (reflect identifier) := (reflect_comes hw identifier).agree rfl

theorem ends_of_answer {identifier : String} {f : Failure}
    (h : w.answer identifier = .error f) : f.ends = true := by
  have hnot := World.isNotFound_of_answer h
  cases f with
  | fault => cases hnot
  | _ => rfl

theorem ends_of_parent? {c : ReflectedClass} {f : Failure} (h : w.parent? c = .error f) :
    f.ends = true := by
  unfold World.parent? at h
  split at h
  · cases h
  next name _ =>
    cases hans : w.answer name with
    | error g => rw [hans] at h; cases h; exact ends_of_answer hans
    | ok d => rw [hans] at h; cases h

/-- The searches of some names agree if the searches in the classes that they name do. -/
theorem firstRelative_agree (hw : w.IsStatic) (hp : ∀ f, f.ends = true → p f = true)
    {failure : Failure} (hfailure : p failure = true)
    {valueIn valueIn' : ReflectedClass → Query Value} {names : List String}
    (hvalue : ∀ name ∈ names, ∀ d, w.answer name = .ok d →
      Agree (Twin (Within w L K)) (FailsOnly p) (valueIn d) (valueIn' d)) :
    Agree (Twin (Within w L K)) (FailsOnly p) (firstRelative valueIn failure names)
      (firstRelative valueIn' failure names) := by
  induction names with
  | nil => exact .throw (failsOnly_error hfailure)
  | cons name rest ih =>
    have hname : Agree (Twin (Within w L K)) (FailsOnly p) (reflect name >>= valueIn)
        (reflect name >>= valueIn') := by
      refine (reflect_agree hw name).bind (fun d hd => ?_) fun f hf => ?_
      · exact hvalue name (List.mem_cons_self ..) d hd
      · exact failsOnly_error (hp f (ends_of_answer hf))
    refine hname.tryCatch (fun _ _ => failsOnly_ok) fun f hf => ?_
    · -- a relative that is not found, or has no value, is passed over
      split
      · exact ih fun other hother => hvalue other (List.mem_cons_of_mem _ hother)
      · exact .throw hf

/-- A class that is reflected, or another failure in place of its not being found. -/
theorem reflect_orThrow_agree (hw : w.IsStatic) {g : Failure} (hg : p g = true)
    (identifier : String) :
    Agree (Twin (Within w L K))
      (fun o => FailsOnly p o ∧ ∀ d, o = .ok d → w.find? d.key = some d)
      (tryCatch (reflect identifier) fun f => if f.isNotFound then throw g else throw f)
      (tryCatch (reflect identifier) fun f => if f.isNotFound then throw g else throw f) := by
  refine (reflect_agree hw identifier).tryCatch (fun d hd => ?_) fun f hf => ?_
  · refine ⟨failsOnly_ok, fun e he => ?_⟩
    cases he
    exact World.find?_key_of_answer hd
  · rw [if_pos (World.isNotFound_of_answer hf)]
    exact .throw ⟨failsOnly_error hg, fun _ he => by cases he⟩

/-- References from inside a class agree if the values of constants that classes have do. -/
theorem resolveConstantWith_agree (hw : w.IsStatic) (hp : ∀ f, f.ends = true → p f = true)
    {valueIn valueIn' : ReflectedClass → String → Query Value} {c : ReflectedClass}
    (hc : w.find? c.key = some c)
    (hvalue : ∀ d name, w.find? d.key = some d →
      Agree (Twin (Within w L K)) (FailsOnly p) (valueIn d name) (valueIn' d name))
    (scope constant : String) :
    Agree (Twin (Within w L K)) (FailsOnly p) (resolveConstantWith valueIn c scope constant)
      (resolveConstantWith valueIn' c scope constant) := by
  have finish (d : ReflectedClass) (hd : w.find? d.key = some d) :
      Agree (Twin (Within w L K)) (FailsOnly p)
        (if asksForName constant then pure (Value.ofString d.name) else valueIn d constant)
        (if asksForName constant then pure (Value.ofString d.name) else valueIn' d constant) := by
    split
    · exact .pure failsOnly_ok
    · exact hvalue d constant hd
  unfold resolveConstantWith
  simp only
  split
  · exact finish c hc
  · split
    · refine (parent_agree hw c).bind (fun next hnext => ?_) fun f hf => ?_
      · cases next with
        | none => exact .throw (failsOnly_error (hp _ rfl))
        | some d => exact finish d (World.has_of_parent? (K := K) hnext).1
      · exact failsOnly_error (hp f (ends_of_parent? hf))
    · split
      · exact .pure failsOnly_ok
      · refine (reflect_orThrow_agree hw (hp _ rfl) _).bind (fun d hd => ?_) fun f hf => ?_
        · exact hvalue d constant (hd.2 d rfl)
        · exact failsOnly_error (hf.1 f rfl)

/-! ## Enough fuel -/

/-- With more fuel than the bound the value of a constant does not depend on how much
more, nor on the store, nor on which classes the search came through if none comes up
again. Without end it fails only where a search comes back to a class. -/
theorem constantWithin_agree (hw : w.IsStatic) (hp : ∀ f, f.ends = true → p f = true) {m n : Nat}
    {searched searched' : List String} {c : ReflectedClass} {name : String}
    (hcycle : (p (.fault .endlessRecursion) = true ∧ searched' = searched) ∨ w.IsAcyclic)
    (hc : w.find? c.key = some c) (hm : w.bound L searched < m) (hn : w.bound L searched' < n)
    (hpath : w.LeadsFrom searched c) (hpath' : w.LeadsFrom searched' c) :
    Agree (Twin (Within w L K)) (FailsOnly p) (constantWithin m searched c name)
      (constantWithin n searched' c name) := by
  induction m generalizing n L searched searched' c name with
  | zero => exact absurd hm (Nat.not_lt_zero _)
  | succ m ih =>
    obtain ⟨n, rfl⟩ : ∃ k, n = k + 1 := ⟨n - 1, by omega⟩
    have hmem := World.mem_classes_of_find? hc
    unfold constantWithin
    cases hd : c.constant? name with
    | some d =>
      refine whileFolding_agree (hp _ rfl) fun hfree => ?_
      have hbound := World.bound_fold_lt (World.mem_knownConstants hmem hd) hfree
      have hless := hbound searched
      have hless' := hbound searched'
      refine Folder.fold_agree (fun f hf => hp f (Failure.ends_of_ofFolding f hf))
        (fun scope constant => ?_) (folder c c.source
          (resolveConstantWith (constantWithin m []) c) []) d.value
      refine resolveConstantWith_agree hw hp hc (fun e other he => ?_) scope constant
      exact ih (hcycle.imp_left fun h => ⟨h.1, rfl⟩) he (by omega) (by omega) .nil .nil
    | none =>
      simp only
      by_cases hseen : searched.contains c.key = true
      · -- the search came back to a class, which is then its own relative
        rcases hcycle with ⟨hany, rfl⟩ | hacyclic
        · rw [if_pos hseen, if_pos hseen]
          exact .throw (failsOnly_error hany)
        · exact absurd (List.contains_iff_mem.mp hseen) (hpath.not_mem hacyclic hc)
      · have hseen' : ¬searched'.contains c.key = true := by
          rcases hcycle with ⟨_, rfl⟩ | hacyclic
          · exact hseen
          · exact fun h => hpath'.not_mem hacyclic hc (List.contains_iff_mem.mp h)
        rw [if_neg hseen, if_neg hseen']
        have hbound := World.bound_search_lt (L := L) hmem
          fun h => hseen (List.contains_iff_mem.mpr h)
        have hbound' := World.bound_search_lt (L := L) hmem
          fun h => hseen' (List.contains_iff_mem.mpr h)
        refine firstRelative_agree hw hp (hp _ rfl) fun relative hrelative d hans => ?_
        have hstep : w.Relative c d := ⟨relative, hrelative, hans⟩
        refine ih (hcycle.imp_left fun h => ⟨h.1, by rw [h.2]⟩) (World.find?_key_of_answer hans)
          (by omega) (by omega) (hpath.step hc hstep) (hpath'.step hc hstep)

/-- The value of a constant does not depend on the store. -/
theorem constantValue_agree (hw : w.IsStatic) (hp : ∀ f, f.ends = true → p f = true)
    (hcycle : p (.fault .endlessRecursion) = true ∨ w.IsAcyclic) {c : ReflectedClass}
    (hc : w.find? c.key = some c) (name : String) :
    Agree (Twin (Within w L K)) (FailsOnly p) (constantValue c name) (constantValue c name) := by
  refine .get_bind fun s s' hs => ?_
  exact constantWithin_agree hw hp (hcycle.imp_left fun h => ⟨h, rfl⟩) hc
    (hs.1.coherent.bound_lt_depth L []) (hs.2.coherent.bound_lt_depth L []) .nil .nil s s' hs

/-! ## Default values -/

/-- The fold of a default value does not depend on the store. -/
theorem foldDefault_agree (hw : w.IsStatic) (hp : ∀ f, f.ends = true → p f = true)
    (hcycle : p (.fault .endlessRecursion) = true ∨ w.IsAcyclic) {c : ReflectedClass}
    (hc : w.find? c.key = some c) (e : Expression) :
    Agree (Twin (Within w L K)) (FailsOnly p)
      ((folder c e.source (resolveConstant c) (defaultMagic c e)).fold e.node)
      ((folder c e.source (resolveConstant c) (defaultMagic c e)).fold e.node) := by
  refine Folder.fold_agree (fun f hf => hp f (Failure.ends_of_ofFolding f hf))
    (fun scope constant => ?_)
    (folder c e.source (resolveConstant c) (defaultMagic c e)) e.node
  refine resolveConstantWith_agree hw hp hc (fun d name hd => ?_) scope constant
  exact constantValue_agree hw hp hcycle hd name

end

end StaticReflection
