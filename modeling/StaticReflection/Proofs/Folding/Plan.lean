import StaticReflection.Proofs.Folding.Outcome

/-!
# What folding an expression takes

`Folder.fold` reads a node's kind, finds the operands among its children and goes on
with them. `Folder.plan` is the first half of that, a `FoldPlan` that names the
operands; `Folder.fold_eq` says that folding a node is carrying out its plan, and
`Folder.foldElements_cons` that an array is built element by element. Operands are
smaller than the node they stand in (`Folder.size_of_plan`), so an induction on the
size of a node follows the plans. Folders that read the same texts plan alike, but for a
name that is a magic constant (`Folder.plan_congr`, `Folder.magicName?`).
-/

namespace StaticReflection

/-- What folding an expression takes: a look at the node, or folding its operands. -/
inductive FoldPlan where
  /-- The outcome is known from the node alone. -/
  | done (o : Outcome Value)
  /-- A child that the expression must have is not there. -/
  | lacking
  /-- A class constant, by the texts of its scope and its name. -/
  | constant (scope name : String)
  | inner (c : Node)
  | unary (operator : String) (c : Node)
  /-- The first operand unless it is null, and then the second. -/
  | coalesce (left right : Node)
  | binary (spelling : String) (operator : BinaryOperator) (left right : Node)
  | conditional (condition : Node) (body : Option Node) (alternative : Node)
  | array (elements : List Node)

/-- What an element of an array is made of. -/
inductive ElementPlan where
  /-- A child that the element must have is not there. -/
  | lacking
  | spread (c : Node)
  | keyed (key item : Node)
  | byReference
  | plain (item : Node)

namespace Node

/-! ## Children without the proofs that they are -/

theorem subnodes_map_val (n : Node) : n.subnodes.map (·.val) = n.children :=
  List.attach_map_subtype_val _

theorem namedSubnodes_map_val (n : Node) : n.namedSubnodes.map (·.val) = n.namedChildren := by
  unfold namedSubnodes namedChildren
  conv => rhs; rw [← n.subnodes_map_val, List.filter_map]
  rfl

theorem subnodeInField?_map_val (n : Node) (field : String) :
    (n.subnodeInField? field).map (·.val) = n.childInField? field := by
  unfold subnodeInField? childInField?
  conv => rhs; rw [← n.subnodes_map_val, List.find?_map]
  rfl

theorem namedSubnodes_head? (n : Node) :
    n.namedSubnodes.head?.map (·.val) = n.namedChildren.head? := by
  rw [← namedSubnodes_map_val, List.head?_map]

theorem namedSubnodes_getLast? (n : Node) :
    n.namedSubnodes.getLast?.map (·.val) = n.namedChildren.getLast? := by
  rw [← namedSubnodes_map_val, List.getLast?_map]

/-- A child by its field, or else another one. -/
theorem fieldOr_map_val (n : Node) (field : String)
    (o : Option { c : Node // c ∈ n.children }) :
    (n.subnodeInField? field <|> o).map (·.val) = (n.childInField? field <|> o.map (·.val)) := by
  rw [← subnodeInField?_map_val]
  cases n.subnodeInField? field <;> rfl

theorem subnodes_head? (n : Node) : n.subnodes.head?.map (·.val) = n.children.head? := by
  rw [← List.head?_map, subnodes_map_val]

theorem subnodes_getLast? (n : Node) : n.subnodes.getLast?.map (·.val) = n.children.getLast? := by
  rw [← List.getLast?_map, subnodes_map_val]

theorem subnodes_getElem? (n : Node) (i : Nat) : n.subnodes[i]?.map (·.val) = n.children[i]? := by
  rw [← List.getElem?_map, subnodes_map_val]

/-- What an element of an array is made of. -/
def elementPlan (e : Node) : ElementPlan :=
  if e.isSpread then
    match e.spreadTarget? with
    | none => .lacking
    | some ⟨target, _⟩ => .spread target
  else if e.children.any (·.kind == "=>") then
    match e.namedChildren.head?, e.namedChildren.getLast? with
    | some key, some item => .keyed key item
    | _, _ => .lacking
  else if e.children.any (·.kind == "&") then .byReference
  else match e.namedChildren.head? with
    | none => .lacking
    | some item => .plain item

end Node

namespace Folder

variable {σ : Type} (F : Folder σ)

/-- What folding a node takes. -/
def plan (n : Node) : FoldPlan :=
  match ExprForm.ofKind? n.kind with
  | none => .done (Outcome.unfoldable (.notConstant n.kind (F.text n)))
  | some .integer => .done (Literal.integer (F.text n))
  | some .float => .done (Literal.float (F.text n))
  | some .truth => .done (.ok (.bool (LetterCase.lower (F.text n) == "true")))
  | some .null => .done (.ok .null)
  | some .string => .done (F.string n)
  | some .encapsed => .done (F.encapsed n)
  | some .heredoc => .done (F.heredoc n)
  | some .nowdoc => .done (F.nowdoc n)
  | some .name => .done (F.namedConstant (F.text n))
  | some .classConstant =>
    match n.namedChildren with
    | scope :: constant :: rest =>
      .constant (F.text scope) (F.text ((constant :: rest).getLast?.getD constant))
    | _ => .done (Outcome.unfoldable (.malformedAccess n.kind))
  | some .parenthesized =>
    match n.namedChildren.head? with
    | none => .lacking
    | some c => .inner c
  | some .array => .array n.arrayElements
  | some .unary =>
    match n.childInField? "operator" <|> n.children.head?, n.namedChildren.getLast? with
    | some operator, some c => .unary (F.text operator) c
    | _, _ => .lacking
  | some .binary =>
    match n.childInField? "left" <|> n.children.head?,
      n.childInField? "right" <|> n.children.getLast?,
      n.childInField? "operator" <|> n.children[1]? with
    | some left, some right, some operator =>
      let spelling := LetterCase.lower (F.text operator)
      if spelling = "??" then .coalesce left right
      else match BinaryOperator.ofSpelling? spelling with
        | none => .done (Outcome.unfoldable (.binaryOperator spelling n.kind))
        | some op => .binary spelling op left right
    | _, _, _ => .lacking
  | some .conditional =>
    match n.childInField? "condition" <|> n.namedChildren.head?,
      n.childInField? "alternative" <|> n.namedChildren.getLast? with
    | some condition, some alternative =>
      .conditional condition (n.childInField? "body") alternative
    | _, _ => .lacking

/-- What a node that is folded without operands comes to, by its form. -/
inductive Leaf (n : Node) : Outcome Value → Prop
  | integer (h : ExprForm.ofKind? n.kind = some .integer) : Leaf n (Literal.integer (F.text n))
  | float (h : ExprForm.ofKind? n.kind = some .float) : Leaf n (Literal.float (F.text n))
  | truth (b : Bool) : Leaf n (.ok (.bool b))
  | null : Leaf n (.ok .null)
  | string (h : ExprForm.ofKind? n.kind = some .string) : Leaf n (F.string n)
  | encapsed (h : ExprForm.ofKind? n.kind = some .encapsed) : Leaf n (F.encapsed n)
  | heredoc (h : ExprForm.ofKind? n.kind = some .heredoc) : Leaf n (F.heredoc n)
  | nowdoc : Leaf n (F.nowdoc n)
  | name : Leaf n (F.namedConstant (F.text n))
  | refused (reason : Unfoldable) : Leaf n (Outcome.unfoldable reason)

/-- A plan that is done at once is that of a leaf. -/
theorem Leaf.of_plan {F : Folder σ} {n : Node} {o : Outcome Value} (h : F.plan n = .done o) :
    F.Leaf n o := by
  have same {o' : Outcome Value} (he : FoldPlan.done o' = .done o) (hl : F.Leaf n o') :
      F.Leaf n o := FoldPlan.done.inj he ▸ hl
  rw [plan] at h
  cases hform : ExprForm.ofKind? n.kind with
  | none => rw [hform] at h; exact same h (.refused _)
  | some form =>
    rw [hform] at h
    cases form with
    | integer => exact same h (.integer hform)
    | float => exact same h (.float hform)
    | truth => exact same h (.truth _)
    | null => exact same h .null
    | string => exact same h (.string hform)
    | encapsed => exact same h (.encapsed hform)
    | heredoc => exact same h (.heredoc hform)
    | nowdoc => exact same h .nowdoc
    | name => exact same h .name
    | array => cases h
    -- of the forms with operands only those that are refused are done at once
    | classConstant =>
      simp only at h
      split at h
      · cases h
      · exact same h (.refused _)
    | parenthesized =>
      simp only at h
      split at h <;> cases h
    | unary =>
      simp only at h
      split at h <;> cases h
    | binary =>
      simp only at h
      split at h
      · split at h
        · cases h
        · split at h
          · exact same h (.refused _)
          · cases h
      · cases h
    | conditional =>
      simp only at h
      split at h <;> cases h

/-- The value of a class constant by the texts of its scope and its name. -/
def resolve (n : Node) (scope name : String) : Folding σ Value :=
  match F.classConstant with
  | none => Folding.unfoldable (.noClassContext scope name n.kind)
  | some resolve => resolve scope name

/-- A unary operator on a folded operand, which fails if there is no such operator. -/
def applyUnary (operator nodeType : String) (v : Value) : Outcome Value :=
  (Value.applyUnary? operator v).getD (Outcome.unfoldable (.unaryOperator operator nodeType))

/-- Folds what a plan says of a node. -/
def carryOut (n : Node) : FoldPlan → Folding σ Value
  | .done o => Folding.lift o
  | .lacking => Folding.missingChild
  | .constant scope name => F.resolve n scope name
  | .inner c => F.fold c
  | .unary operator c => do Folding.lift (applyUnary operator n.kind (← F.fold c))
  | .coalesce left right => do
    let v ← F.fold left
    if v.isNull then F.fold right else return v
  | .binary spelling operator left right => do
    let a ← F.fold left
    let b ← F.fold right
    Folding.lift (applyBinary spelling n.kind operator a b)
  | .conditional condition body alternative => do
    let v ← F.fold condition
    if v.truthy then
      match body with
      | some body => F.fold body
      | none => return v
    else F.fold alternative
  | .array elements => do return (← F.foldElements elements Accumulator.empty).value

/-- An array with one element more. -/
def foldElement (acc : Accumulator) (e : Node) : Folding σ Accumulator :=
  match e.elementPlan with
  | .lacking => Folding.missingChild
  | .spread c => do Folding.lift (acc.extend (← F.fold c))
  | .keyed key item => do
    let k ← F.fold key
    let v ← F.fold item
    Folding.lift (acc.set k v)
  | .byReference => Folding.unfoldable (.byReference e.kind)
  | .plain item => do return acc.append (← F.fold item)

theorem fold_unary_eq {n : Node} (h : ExprForm.ofKind? n.kind = some .unary) :
    F.fold n = F.carryOut n (F.plan n) := by
  rw [fold, plan, h]
  simp only
  rw [← n.namedSubnodes_getLast?, ← n.subnodes_head?, ← n.fieldOr_map_val]
  rcases n.subnodeInField? "operator" <|> n.subnodes.head? with _ | ⟨operator, ho⟩
  · rfl
  · rcases n.namedSubnodes.getLast? with _ | ⟨c, hc⟩
    · rfl
    · show _ = F.carryOut n (.unary (F.text operator) c)
      unfold carryOut applyUnary
      simp only
      congr 1
      funext v
      cases Value.applyUnary? (F.text operator) v <;> rfl

theorem fold_binary_eq {n : Node} (h : ExprForm.ofKind? n.kind = some .binary) :
    F.fold n = F.carryOut n (F.plan n) := by
  rw [fold, plan, h]
  simp only
  rw [← n.subnodes_head?, ← n.subnodes_getLast?, ← n.subnodes_getElem?,
    ← n.fieldOr_map_val, ← n.fieldOr_map_val, ← n.fieldOr_map_val]
  rcases n.subnodeInField? "left" <|> n.subnodes.head? with _ | ⟨left, hl⟩
  · rfl
  · rcases n.subnodeInField? "right" <|> n.subnodes.getLast? with _ | ⟨right, hr⟩
    · rfl
    · rcases n.subnodeInField? "operator" <|> n.subnodes[1]? with _ | ⟨operator, ho⟩
      · rfl
      · simp only [Option.map_some]
        split
        · rfl
        · cases BinaryOperator.ofSpelling? (LetterCase.lower (F.text operator)) <;> rfl

theorem fold_conditional_eq {n : Node} (h : ExprForm.ofKind? n.kind = some .conditional) :
    F.fold n = F.carryOut n (F.plan n) := by
  rw [fold, plan, h]
  simp only
  rw [← n.namedSubnodes_head?, ← n.namedSubnodes_getLast?, ← n.fieldOr_map_val,
    ← n.fieldOr_map_val, ← n.subnodeInField?_map_val "body"]
  rcases n.subnodeInField? "condition" <|> n.namedSubnodes.head? with _ | ⟨condition, hc⟩
  · rfl
  · rcases n.subnodeInField? "alternative" <|> n.namedSubnodes.getLast? with _ | ⟨alternative, ha⟩
    · rfl
    · rcases n.subnodeInField? "body" with _ | ⟨body, hb⟩ <;> rfl

/-- Folding a node is carrying out its plan. -/
theorem fold_eq (n : Node) : F.fold n = F.carryOut n (F.plan n) := by
  -- a fold carries proofs that its operands are children, which the plan does not need
  cases h : ExprForm.ofKind? n.kind with
  | none => rw [fold, plan, h]; rfl
  | some form =>
    cases form with
    | unary => exact F.fold_unary_eq h
    | binary => exact F.fold_binary_eq h
    | conditional => exact F.fold_conditional_eq h
    | parenthesized =>
      rw [fold, plan, h]
      simp only
      rw [← n.namedSubnodes_head?]
      rcases n.namedSubnodes.head? with _ | ⟨c, hc⟩ <;> rfl
    | classConstant =>
      rw [fold, plan, h]
      unfold classConstantAccess
      simp only
      rcases n.namedChildren with _ | ⟨scope, _ | ⟨constant, rest⟩⟩ <;> rfl
    | _ => rw [fold, plan, h]; rfl

theorem foldElements_nil (acc : Accumulator) : F.foldElements [] acc = pure acc := by
  rw [foldElements]

/-- An array is built element by element. -/
theorem foldElements_cons (e : Node) (rest : List Node) (acc : Accumulator) :
    F.foldElements (e :: rest) acc = F.foldElement acc e >>= F.foldElements rest := by
  rw [foldElements]
  unfold foldElement Node.elementPlan
  rw [← e.namedSubnodes_head?, ← e.namedSubnodes_getLast?]
  by_cases hs : e.isSpread = true
  · rw [if_pos hs, if_pos hs]
    rcases e.spreadTarget? with _ | ⟨target, ht⟩
    · rfl
    · exact (bind_assoc _ _ _).symm
  · rw [if_neg hs, if_neg hs]
    by_cases hk : e.children.any (·.kind == "=>") = true
    · rw [if_pos hk, if_pos hk]
      rcases e.namedSubnodes.head? with _ | ⟨key, _⟩
      · rfl
      · rcases e.namedSubnodes.getLast? with _ | ⟨item, _⟩
        · rfl
        · simp only [Option.map_some, bind_assoc]
    · rw [if_neg hk, if_neg hk]
      by_cases hr : e.children.any (·.kind == "&") = true
      · rw [if_pos hr, if_pos hr]; rfl
      · rw [if_neg hr, if_neg hr]
        rcases e.namedSubnodes.head? with _ | ⟨item, _⟩
        · rfl
        · simp only [Option.map_some, bind_assoc, pure_bind]

theorem foldElements_append (es : List Node) (more : List Node) (acc : Accumulator) :
    F.foldElements (es ++ more) acc = F.foldElements es acc >>= F.foldElements more := by
  induction es generalizing acc with
  | nil => rw [foldElements_nil, List.nil_append, pure_bind]
  | cons e es ih =>
    rw [List.cons_append, foldElements_cons, foldElements_cons, bind_assoc]
    congr 1
    funext a
    exact ih a

theorem foldElements_concat (es : List Node) (e : Node) (acc : Accumulator) :
    F.foldElements (es ++ [e]) acc = F.foldElements es acc >>= fun a => F.foldElement a e := by
  have hnil : F.foldElements [] = pure := funext F.foldElements_nil
  rw [foldElements_append]
  congr 1
  funext a
  rw [foldElements_cons, hnil, bind_pure]

/-! ## Operands are smaller -/

end Folder

/-- The nodes that an element of an array is made of. -/
def ElementPlan.operands : ElementPlan → List Node
  | .spread c => [c]
  | .keyed key item => [key, item]
  | .plain item => [item]
  | _ => []

/-- The nodes that a plan has folded. -/
def FoldPlan.operands : FoldPlan → List Node
  | .inner c => [c]
  | .unary _ c => [c]
  | .coalesce left right => [left, right]
  | .binary _ _ left right => [left, right]
  | .conditional condition body alternative => condition :: alternative :: body.toList
  | .array elements => elements.flatMap fun e => e.elementPlan.operands
  | _ => []

theorem Node.mem_of_fieldOr {n c : Node} {field : String} {o : Option Node}
    (h : (n.childInField? field <|> o) = some c) (ho : ∀ d, o = some d → d ∈ n.children) :
    c ∈ n.children := by
  cases hf : n.childInField? field with
  | some d => rw [hf] at h; cases h; exact mem_of_childInField? hf
  | none => rw [hf] at h; exact ho c h

theorem Node.size_of_elementPlan {e c : Node} (h : c ∈ e.elementPlan.operands) :
    c.size < e.size := by
  have named {d : Node} (hd : d ∈ e.namedChildren) : d.size < e.size :=
    size_lt_of_mem (mem_children_of_named hd)
  unfold elementPlan at h
  split at h
  · rcases ht : e.spreadTarget? with _ | ⟨target, hlt⟩
    · rw [ht] at h; exact absurd h (by simp [ElementPlan.operands])
    · rw [ht] at h
      rw [List.mem_singleton.mp h]
      exact hlt
  · split at h
    · split at h
      · next key item hkey hitem =>
        rcases List.mem_cons.mp h with rfl | h
        · exact named (List.mem_of_head? hkey)
        · rw [List.mem_singleton.mp h]
          exact named (List.mem_of_getLast? hitem)
      · exact absurd h (by simp [ElementPlan.operands])
    · split at h
      · exact absurd h (by simp [ElementPlan.operands])
      · split at h
        · exact absurd h (by simp [ElementPlan.operands])
        · next item hitem =>
          rw [List.mem_singleton.mp h]
          exact named (List.mem_of_head? hitem)

theorem Node.size_of_mem_arrayElements {n e : Node} (h : e ∈ n.arrayElements) :
    e.size < n.size := size_lt_of_mem (mem_children_of_named (List.mem_filter.mp h).1)

/-- What a plan has folded is smaller than the node. -/
theorem Folder.size_of_plan {σ : Type} {F : Folder σ} {n c : Node}
    (h : c ∈ (F.plan n).operands) : c.size < n.size := by
  have named {d : Node} (hd : d ∈ n.namedChildren) : d.size < n.size :=
    Node.size_lt_of_mem (Node.mem_children_of_named hd)
  rw [plan] at h
  cases hform : ExprForm.ofKind? n.kind with
  | none => rw [hform] at h; exact (List.not_mem_nil h).elim
  | some form =>
    rw [hform] at h
    cases form with
    | classConstant =>
      simp only at h
      split at h <;> exact (List.not_mem_nil h).elim
    | parenthesized =>
      simp only at h
      split at h
      · exact (List.not_mem_nil h).elim
      · next d hd =>
        rw [List.mem_singleton.mp h]
        exact named (List.mem_of_head? hd)
    | array =>
      obtain ⟨e, he, hc⟩ := List.mem_flatMap.mp h
      exact Nat.lt_trans (Node.size_of_elementPlan hc) (Node.size_of_mem_arrayElements he)
    | unary =>
      simp only at h
      split at h
      · next d _ hd =>
        rw [List.mem_singleton.mp h]
        exact named (List.mem_of_getLast? hd)
      · exact (List.not_mem_nil h).elim
    | binary =>
      simp only at h
      split at h
      · next left right operator hl hr _ =>
        have hleft := Node.size_lt_of_mem (Node.mem_of_fieldOr hl fun _ => List.mem_of_head?)
        have hright := Node.size_lt_of_mem (Node.mem_of_fieldOr hr fun _ => List.mem_of_getLast?)
        have hboth (hc : c ∈ [left, right]) : c.size < n.size := by
          rcases List.mem_cons.mp hc with rfl | hc
          · exact hleft
          · rw [List.mem_singleton.mp hc]; exact hright
        split at h
        · exact hboth h
        · split at h
          · exact (List.not_mem_nil h).elim
          · exact hboth h
      · exact (List.not_mem_nil h).elim
    | conditional =>
      simp only at h
      split at h
      · next condition alternative hcond halt =>
        rcases List.mem_cons.mp h with rfl | h
        · exact Node.size_lt_of_mem (Node.mem_of_fieldOr hcond fun _ hd =>
            Node.mem_children_of_named (List.mem_of_head? hd))
        · rcases List.mem_cons.mp h with rfl | h
          · exact Node.size_lt_of_mem (Node.mem_of_fieldOr halt fun _ hd =>
              Node.mem_children_of_named (List.mem_of_getLast? hd))
          · exact Node.size_lt_of_mem (Node.mem_of_childInField? (Option.mem_toList.mp h))
      · exact (List.not_mem_nil h).elim
    | _ => exact (List.not_mem_nil h).elim

/-! ## Folders that read the same texts -/

namespace Folder

variable {σ : Type} {F H : Folder σ} {n : Node}

/-- The name under which a constant is looked up among the magic ones, if it is. -/
def magicName? (written : String) : Option String :=
  let name := bareName written
  if name.toList.contains '\\' then none
  else if (BuiltinConstants.literal? (LetterCase.lower name)).isSome then none
  else if name.startsWith "__" then some (LetterCase.upper name)
  else none

/-- Folders with the same magic constant under a name give the name the same value. -/
theorem namedConstant_congr {written : String}
    (h : ∀ key, magicName? written = some key → H.magic.lookup key = F.magic.lookup key) :
    H.namedConstant written = F.namedConstant written := by
  unfold namedConstant
  unfold magicName? at h
  simp only at h ⊢
  split
  · rfl
  next hplain =>
    rw [if_neg hplain] at h
    cases hliteral : BuiltinConstants.literal? (LetterCase.lower (bareName written)) with
    | some v => rfl
    | none =>
      rw [hliteral, Option.isSome_none, if_neg Bool.false_ne_true] at h
      simp only
      by_cases hmark : (bareName written).startsWith "__" = true
      · rw [if_pos hmark] at h
        rw [if_pos hmark, if_pos hmark, h _ rfl]
      · rw [if_neg hmark, if_neg hmark]

/-- A name that is looked up among the magic constants and is there has that value. -/
theorem namedConstant_magic {written key : String} {v : Value}
    (h : magicName? written = some key) (hv : F.magic.lookup key = some v) :
    F.namedConstant written = .ok v := by
  unfold magicName? at h
  unfold namedConstant
  simp only at h ⊢
  split at h
  · cases h
  next hplain =>
    rw [if_neg hplain]
    split at h
    · cases h
    next hliteral =>
      rw [Option.not_isSome_iff_eq_none.mp hliteral]
      split at h
      next hmark =>
        have hkey := Option.some.inj h
        simp only
        rw [if_pos hmark, hkey, hv]
      next => cases h

/-- What folding a node takes depends on the texts, and for a name on its value. -/
theorem plan_congr (htext : H.text = F.text)
    (hname : ExprForm.ofKind? n.kind = some .name →
      H.namedConstant (F.text n) = F.namedConstant (F.text n)) : H.plan n = F.plan n := by
  obtain ⟨text, resolver, magic⟩ := F
  obtain ⟨_, resolver', magic'⟩ := H
  cases htext
  unfold plan
  cases hform : ExprForm.ofKind? n.kind with
  | none => rfl
  | some form =>
    cases form with
    | name => exact congrArg FoldPlan.done (hname hform)
    | _ => rfl

/-- A class constant is no name. -/
theorem not_name_of_constant {scope name : String} (h : F.plan n = .constant scope name) :
    ExprForm.ofKind? n.kind ≠ some .name := by
  intro hform
  have hdone : F.plan n = .done (F.namedConstant (F.text n)) := by rw [plan, hform]
  exact FoldPlan.noConfusion (hdone.symm.trans h)

theorem fold_constant {scope name : String} (h : F.plan n = .constant scope name) :
    F.fold n = F.resolve n scope name := by
  rw [fold_eq, h]
  rfl

end Folder

end StaticReflection
