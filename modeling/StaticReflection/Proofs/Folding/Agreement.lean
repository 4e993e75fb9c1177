import StaticReflection.Proofs.Folding.Faults

/-!
# Folds that agree

A fold looks at the state only through its resolver of class constants. So two folders
that are alike but for their resolvers fold alike, as long as their resolvers agree:

> `fold_agree`: folds of one node with resolvers that agree agree, and fail only with
> what the resolvers fail with, or what folding itself does.

What folding itself fails with (`Failure.ofFolding`) is never a failure without end, and
never that something is not found: literals, keys and operators have faults of their own.
-/

namespace StaticReflection

open Folding Outcome

namespace Failure

/-- A failure that literals, keys and operators may have. -/
def ofFolding : Failure → Bool
  | .unfoldable _ => true
  | .fault cause => !(cause == .endlessRecursion)
  | _ => false

theorem ofFolding_of_isUnfoldable (f : Failure) (h : f.isUnfoldable = true) :
    f.ofFolding = true := by
  cases f with
  | unfoldable => rfl
  | _ => cases h

theorem ofFolding_of_isReported (f : Failure) (h : f.isReported = true) :
    f.ofFolding = true := by
  cases f with
  | fault cause =>
    cases cause with
    | endlessRecursion => cases h
    | _ => rfl
  | unfoldable => rfl
  | _ => cases h

theorem ends_of_ofFolding (f : Failure) (h : f.ofFolding = true) : f.ends = true := by
  cases f with
  | fault cause =>
    cases cause with
    | endlessRecursion => cases h
    | _ => rfl
  | _ => rfl

theorem not_isNotFound_of_ofFolding (f : Failure) (h : f.ofFolding = true) :
    f.isNotFound = false := by
  cases f with
  | unfoldable => rfl
  | fault => rfl
  | _ => cases h

end Failure

namespace Literal

theorem integer_ofFolding (text : String) : (integer text).FailsOnly Failure.ofFolding := by
  unfold integer
  simp only
  split
  · exact failsOnly_error rfl
  · split
    · exact ((Value.floatOfInt_reported _).mono Failure.ofFolding_of_isReported).bind fun _ =>
        failsOnly_ok
    · exact failsOnly_ok

theorem float_ofFolding (text : String) : (float text).FailsOnly Failure.ofFolding := by
  unfold float
  split
  · exact failsOnly_ok
  · exact failsOnly_error rfl

theorem namedCode_ofFolding (n : Nat) : (namedCode n).FailsOnly Failure.ofFolding := by
  unfold namedCode
  split
  · exact failsOnly_ok
  · split <;> exact failsOnly_error rfl

theorem escape?_ofFolding {cs : List Char} {code : Outcome CodePoint} {used : Nat}
    (h : escape? cs = some (code, used)) : code.FailsOnly Failure.ofFolding := by
  unfold escape? at h
  split at h
  · cases h
  · split at h
    · split at h
      · simp only at h
        split at h
        · split at h
          · cases h
          · cases h; exact namedCode_ofFolding _
        · cases h
      · cases h
    · split at h
      · simp only at h
        split at h
        · cases h
        · cases h; exact failsOnly_ok
      · split at h
        · cases h; exact failsOnly_ok
        · obtain ⟨d, _, hd⟩ := Option.map_eq_some_iff.mp h
          cases hd
          exact failsOnly_ok

theorem unescapeFrom_ofFolding (cs : List Char) (skip : Nat) :
    (unescapeFrom skip cs).FailsOnly Failure.ofFolding := by
  induction cs generalizing skip with
  | nil => cases skip <;> exact failsOnly_ok
  | cons c rest ih =>
    cases skip with
    | succ skip => exact ih skip
    | zero =>
      unfold unescapeFrom
      split
      · split
        next code used he =>
          exact (escape?_ofFolding he).bind fun _ => (ih used).bind fun _ => failsOnly_ok
        next => exact (ih 0).bind fun _ => failsOnly_ok
      · exact (ih 0).bind fun _ => failsOnly_ok

theorem unescapeDouble_ofFolding (cs : List Char) :
    (unescapeDouble cs).FailsOnly Failure.ofFolding :=
  (unescapeFrom_ofFolding cs 0).bind fun _ => failsOnly_ok

end Literal

theorem Key.ofValue_ofFolding (v : Value) : (Key.ofValue v).FailsOnly Failure.ofFolding := by
  cases v with
  | text t => exact (Key.ofText_reported t).mono Failure.ofFolding_of_isReported
  | float x =>
    rw [Key.ofValue, Key.ofFloat]
    split
    · exact failsOnly_error rfl
    · exact failsOnly_error rfl
    · exact failsOnly_ok
  | constantNaN c => exact failsOnly_error rfl
  | list items => exact failsOnly_error rfl
  | map entries => exact failsOnly_error rfl
  | _ => exact failsOnly_ok

namespace Accumulator

theorem set_ofFolding (a : Accumulator) (key value : Value) :
    (a.set key value).FailsOnly Failure.ofFolding :=
  (Key.ofValue_ofFolding key).bind fun _ => failsOnly_ok

theorem extendEntries_ofFolding (a : Accumulator) (entries : List (Key × Value)) :
    (a.extendEntries entries).FailsOnly Failure.ofFolding := by
  induction entries generalizing a with
  | nil => exact failsOnly_ok
  | cons e rest ih =>
    obtain ⟨k, v⟩ := e
    cases k with
    | int n => exact ih (a.append v)
    | text t => exact (set_ofFolding a (.text t) v).bind ih

theorem extend_ofFolding (a : Accumulator) (v : Value) :
    (a.extend v).FailsOnly Failure.ofFolding := by
  cases v with
  | list items => exact failsOnly_ok
  | map entries => exact extendEntries_ofFolding a entries
  | _ => exact failsOnly_error rfl

end Accumulator

theorem Value.applyUnary?_ofFolding {operator : String} {v : Value} {o : Outcome Value}
    (h : applyUnary? operator v = some o) : o.FailsOnly Failure.ofFolding := by
  unfold applyUnary? at h
  split at h
  · cases h
    refine (v.number_failsOnly.mono Failure.ofFolding_of_isUnfoldable).bind fun x => ?_
    split
    · exact (ofIntResult_reported _).mono Failure.ofFolding_of_isReported
    · exact failsOnly_ok
  · split at h
    · cases h
      exact v.toNumber_failsOnly.mono Failure.ofFolding_of_isUnfoldable
    · split at h
      · cases h
        exact (v.toInt_failsOnly.mono Failure.ofFolding_of_isUnfoldable).bind fun _ => failsOnly_ok
      · split at h
        · cases h; exact failsOnly_ok
        · split at h
          · cases h; exact failsOnly_ok
          · cases h

namespace Folder

variable {σ : Type} {F : Folder σ}

theorem applyUnary_ofFolding (operator nodeType : String) (v : Value) :
    (applyUnary operator nodeType v).FailsOnly Failure.ofFolding := by
  unfold applyUnary
  cases h : Value.applyUnary? operator v with
  | none => exact failsOnly_error rfl
  | some o => exact Value.applyUnary?_ofFolding h

theorem applyBinary_ofFolding (spelling nodeType : String) (op : BinaryOperator) (a b : Value) :
    (applyBinary spelling nodeType op a b).FailsOnly Failure.ofFolding :=
  (applyBinary_failsOnly spelling nodeType op a b).mono Failure.ofFolding_of_isUnfoldable

theorem encapsed_ofFolding (n : Node) : (F.encapsed n).FailsOnly Failure.ofFolding :=
  ((plainString_failsOnly n).mono Failure.ofFolding_of_isUnfoldable).bind fun _ =>
    (Literal.unescapeDouble_ofFolding _).bind fun _ => failsOnly_ok

theorem heredoc_ofFolding (n : Node) : (F.heredoc n).FailsOnly Failure.ofFolding :=
  ((plainString_failsOnly n).mono Failure.ofFolding_of_isUnfoldable).bind fun _ =>
    (Literal.unescapeDouble_ofFolding _).bind fun _ => failsOnly_ok

theorem string_ofFolding (n : Node) : (F.string n).FailsOnly Failure.ofFolding := by
  unfold string
  split
  · exact encapsed_ofFolding n
  · exact failsOnly_ok

/-- What is known from a node alone fails as folding does. -/
theorem ofFolding_of_plan {n : Node} {o : Outcome Value} (h : F.plan n = .done o) :
    o.FailsOnly Failure.ofFolding := by
  cases Leaf.of_plan h with
  | integer => exact Literal.integer_ofFolding _
  | float => exact Literal.float_ofFolding _
  | truth | null | nowdoc => exact failsOnly_ok
  | string => exact string_ofFolding n
  | encapsed => exact encapsed_ofFolding n
  | heredoc => exact heredoc_ofFolding n
  | name => exact (namedConstant_failsOnly _).mono Failure.ofFolding_of_isUnfoldable
  | refused => exact failsOnly_error rfl

/-- An expression that fails alone fails as folding does, or is a class constant. -/
theorem FailsAlone.ofFolding {n : Node} {s : σ} {f : Failure} (h : F.FailsAlone n s f) :
    f.ofFolding = true ∨ ∃ scope name, F.plan n = .constant scope name
      ∧ (F.resolve n scope name).outcome s = .error f := by
  cases h with
  | done h => exact .inl (ofFolding_of_plan h f rfl)
  | lacking => exact .inl rfl
  | constant h ho => exact .inr ⟨_, _, h, ho⟩
  | unary _ _ ho => exact .inl (applyUnary_ofFolding _ _ _ f ho)
  | binary _ _ _ ho => exact .inl (applyBinary_ofFolding _ _ _ _ _ f ho)
  | element _ _ he =>
    cases he with
    | lacking | byReference => exact .inl rfl
    | spread _ _ ho => exact .inl (Accumulator.extend_ofFolding _ _ f ho)
    | keyed _ _ _ ho => exact .inl (Accumulator.set_ofFolding _ _ _ f ho)

/-! ## Folders alike but for their resolvers -/

/-- What folding a node takes does not depend on the resolver. -/
theorem plan_resolver (F : Folder σ) (o : Option (String → String → Folding σ Value)) (n : Node) :
    plan { F with classConstant := o } n = F.plan n :=
  plan_congr rfl fun _ => namedConstant_congr fun _ _ => rfl

section

variable {I : σ → σ → Prop} {p : Failure → Bool} {r r' : String → String → Folding σ Value}

/-- An element of an array whose operands are folded alike is added alike. -/
theorem foldElement_agree (hp : ∀ f, f.ofFolding = true → p f = true) {F F' : Folder σ}
    {e : Node} (acc : Accumulator)
    (h : ∀ c ∈ e.elementPlan.operands, Agree I (FailsOnly p) (F.fold c) (F'.fold c)) :
    Agree I (FailsOnly p) (F.foldElement acc e) (F'.foldElement acc e) := by
  have pass {α β : Type} (f : Failure) (hf : FailsOnly p (.error f : Outcome α)) :
      FailsOnly p (.error f : Outcome β) := failsOnly_error (hf f rfl)
  unfold foldElement
  cases he : e.elementPlan with
  | lacking => exact .throw (failsOnly_error (hp _ rfl))
  | byReference => exact .throw (failsOnly_error (hp _ rfl))
  | spread c =>
    rw [he] at h
    refine (h c (List.mem_singleton.mpr rfl)).bind (fun v _ => ?_) pass
    exact .lift ((acc.extend_ofFolding v).mono hp)
  | plain item =>
    rw [he] at h
    exact (h item (List.mem_singleton.mpr rfl)).bind (fun _ _ => .pure failsOnly_ok) pass
  | keyed key item =>
    rw [he] at h
    refine (h key (List.mem_cons_self ..)).bind (fun k _ => ?_) pass
    refine (h item (List.mem_cons_of_mem _ (List.mem_singleton.mpr rfl))).bind (fun v _ => ?_) pass
    exact .lift ((acc.set_ofFolding k v).mono hp)

/-- Elements whose operands are folded alike make the same array. -/
theorem foldElements_agree (hp : ∀ f, f.ofFolding = true → p f = true) {F F' : Folder σ}
    {es : List Node} (acc : Accumulator)
    (h : ∀ e ∈ es, ∀ c ∈ e.elementPlan.operands, Agree I (FailsOnly p) (F.fold c) (F'.fold c)) :
    Agree I (FailsOnly p) (F.foldElements es acc) (F'.foldElements es acc) := by
  induction es generalizing acc with
  | nil => rw [foldElements_nil, foldElements_nil]; exact .pure failsOnly_ok
  | cons e rest ih =>
    rw [foldElements_cons, foldElements_cons]
    refine (foldElement_agree hp acc (h e (List.mem_cons_self ..))).bind (fun next _ => ?_)
      fun f hf => failsOnly_error (hf f rfl)
    exact ih next fun d hd => h d (List.mem_cons_of_mem _ hd)

/-- Folders alike but for resolvers that agree fold alike. -/
theorem fold_agree (hp : ∀ f, f.ofFolding = true → p f = true)
    (hr : ∀ scope name, Agree I (FailsOnly p) (r scope name) (r' scope name)) (F : Folder σ)
    (n : Node) :
    Agree I (FailsOnly p) ({ F with classConstant := some r }.fold n)
      ({ F with classConstant := some r' }.fold n) := by
  have pass {α β : Type} (f : Failure) (hf : FailsOnly p (.error f : Outcome α)) :
      FailsOnly p (.error f : Outcome β) := failsOnly_error (hf f rfl)
  -- on the size of the node, since operands are smaller
  induction hsize : n.size using Nat.strongRecOn generalizing n with
  | ind k ih =>
    have operand (c : Node) (hc : c ∈ (F.plan n).operands) :
        Agree I (FailsOnly p) ({ F with classConstant := some r }.fold c)
          ({ F with classConstant := some r' }.fold c) :=
      ih c.size (hsize ▸ size_of_plan hc) c rfl
    rw [fold_eq, fold_eq, plan_resolver F (some r), plan_resolver F (some r')]
    cases h : F.plan n with
    | done o => exact .lift ((ofFolding_of_plan h).mono hp)
    | lacking => exact .throw (failsOnly_error (hp _ rfl))
    | constant scope name => exact hr scope name
    | inner c => exact operand c (by rw [h]; exact List.mem_singleton.mpr rfl)
    | unary operator c =>
      refine (operand c (by rw [h]; exact List.mem_singleton.mpr rfl)).bind (fun v _ => ?_) pass
      exact .lift ((applyUnary_ofFolding operator n.kind v).mono hp)
    | coalesce left right =>
      rw [h] at operand
      refine (operand left (List.mem_cons_self ..)).bind (fun v _ => ?_) pass
      split
      · exact operand right (List.mem_cons_of_mem _ (List.mem_singleton.mpr rfl))
      · exact .pure failsOnly_ok
    | binary spelling operator left right =>
      rw [h] at operand
      refine (operand left (List.mem_cons_self ..)).bind (fun a _ => ?_) pass
      refine (operand right (List.mem_cons_of_mem _ (List.mem_singleton.mpr rfl))).bind
        (fun b _ => ?_) pass
      exact .lift ((applyBinary_ofFolding spelling n.kind operator a b).mono hp)
    | conditional condition body alternative =>
      rw [h] at operand
      refine (operand condition (List.mem_cons_self ..)).bind (fun v _ => ?_) pass
      split
      · cases body with
        | none => exact .pure failsOnly_ok
        | some body =>
          exact operand body (List.mem_cons_of_mem _ (List.mem_cons_of_mem _
            (List.mem_singleton.mpr rfl)))
      · exact operand alternative (List.mem_cons_of_mem _ (List.mem_cons_self ..))
    | array elements =>
      rw [h] at operand
      have hall := foldElements_agree hp Accumulator.empty fun e he c hc =>
        operand c (List.mem_flatMap.mpr ⟨e, he, hc⟩)
      exact hall.bind (fun _ _ => .pure failsOnly_ok) pass

end

/-! ## What folds preserve -/

section

variable {P : σ → Prop} {r : String → String → Folding σ Value}

/-- A fold preserves what its resolver preserves. -/
theorem fold_preserves (hr : ∀ scope name, Preserves P (r scope name)) (F : Folder σ) (n : Node) :
    Preserves P ({ F with classConstant := some r }.fold n) := by
  have hagree := fold_agree (p := fun _ => true) (fun _ _ => rfl) (fun scope name =>
    (preserves_iff_agree.mp (hr scope name)).mono fun _ _ _ _ => rfl) F n
  exact preserves_iff_agree.mpr (hagree.mono fun _ _ => trivial)

theorem foldElements_preserves (h : ∀ c, Preserves P (F.fold c)) (es : List Node)
    (acc : Accumulator) : Preserves P (F.foldElements es acc) := by
  have hagree : Agree (fun s s' => s' = s ∧ P s) (FailsOnly fun _ => true)
      (F.foldElements es acc) (F.foldElements es acc) :=
    foldElements_agree (fun _ _ => rfl) acc fun _ _ c _ =>
      (preserves_iff_agree.mp (h c)).mono fun _ _ _ _ => rfl
  exact preserves_iff_agree.mpr (hagree.mono fun _ _ => trivial)

/-- What folds preserve holds in the state from which an operand is folded. -/
theorem Operand.preserves (h : ∀ c, Preserves P (F.fold c)) {n c : Node} {s t : σ}
    (ho : F.Operand n s c t) (hs : P s) : P t := by
  cases ho with
  | fallback _ _ _ => exact h _ s hs
  | right _ _ => exact h _ s hs
  | body _ _ _ => exact h _ s hs
  | alternative _ _ _ => exact h _ s hs
  | element _ _ he =>
    have hall := fun es => foldElements_preserves h es Accumulator.empty s hs
    cases he with
    | item _ _ => exact h _ _ (hall _)
    | _ => exact hall _
  | _ => exact hs

theorem Reaches.preserves (h : ∀ c, Preserves P (F.fold c)) {n m : Node} {s t : σ}
    (hr : F.Reaches n s m t) (hs : P s) : P t := by
  induction hr with
  | refl => exact hs
  | step ho _ ih => exact ih (ho.preserves h hs)

end

end Folder

end StaticReflection
