import Mathlib.Data.List.Forall2
import Mathlib.Data.Option.Defs
import StaticReflection.Proofs.Folding.Reach

/-!
# Expressions with comments in them

A comment is a node of the syntax tree, and a named one. `Commented` relates an expression to
the same expression with comments added at any depth, each between two children of a node
(`Sprinkled`). Literals and names are single tokens, so none is added inside of them.

What a fold looks up among the children of a node is found in the commented node as well, by
its field (`Commented.childInField?`), as the first or the last child (`Commented.head?`,
`Commented.getLast?`), or by its kind. The first and the last *named* child are the exception:
they may have become comments.
-/

namespace StaticReflection

namespace Node

/-- Whether a node is a comment. -/
def isComment (n : Node) : Bool := n.kind == "comment"

/-- Whether a comment stands anywhere in a tree. -/
def hasComment (n : Node) : Bool := n.preorder.any isComment

/-- A comment as a child of any node. -/
structure IsAdded (m : Node) : Prop where
  kind : m.kind = "comment"
  isNamed : m.isNamed = true
  field : m.field = none

/-- Whether an expression is a single token: a name, or a literal in which nothing is
interpolated. -/
def isToken (n : Node) : Bool :=
  match ExprForm.ofKind? n.kind with
  | some .encapsed => (interpolatedParts n.children).isEmpty
  | some .heredoc => (interpolatedParts n.children).isEmpty
  | some .parenthesized => false
  | some .array => false
  | some .unary => false
  | some .binary => false
  | some .conditional => false
  | some .classConstant => false
  | some _ => true
  | none => false

/-- A node without children that is no comment, such as the sign of an operator. -/
def IsSign (n : Node) : Prop := n.children = [] ∧ n.isComment = false

/-- Whether the first child is a named one. -/
def OpensNamed (n : Node) : Prop := ∃ c, n.children.head? = some c ∧ c.isNamed = true

/-- Whether the last child is a named one. -/
def ClosesNamed (n : Node) : Prop := ∃ c, n.children.getLast? = some c ∧ c.isNamed = true

/-- What the grammar says of the children that operators and array elements have. -/
structure IsGrammatical (n : Node) : Prop where
  unary : ExprForm.ofKind? n.kind = some .unary →
    (∃ o, (n.childInField? "operator" <|> n.children.head?) = some o ∧ o.IsSign) ∧ n.ClosesNamed
  binary : ExprForm.ofKind? n.kind = some .binary →
    ∃ o, n.childInField? "operator" = some o ∧ o.IsSign
  conditional : ExprForm.ofKind? n.kind = some .conditional →
    (n.childInField? "condition").isSome = true ∧ (n.childInField? "alternative").isSome = true
  /-- An element begins with its key, with its value or with `...`, if it is no reference, and
  ends with what it holds. -/
  element : n.kind = "array_element_initializer" → n.elementPlan = .byReference
    ∨ ((n.children.any (·.kind == "...") = true ∨ n.OpensNamed) ∧ n.ClosesNamed)
  unpacking : n.kind = "variadic_unpacking" → n.ClosesNamed

/-- The grammar asks nothing of the children of other nodes. -/
theorem IsGrammatical.of_kind {n : Node}
    (h : ExprForm.ofKind? n.kind ∉ [some .unary, some .binary, some .conditional])
    (hkind : n.kind ∉ ["array_element_initializer", "variadic_unpacking"]) : n.IsGrammatical where
  unary hform := absurd (hform ▸ List.mem_cons_self ..) h
  binary hform := absurd (hform ▸ List.mem_cons_of_mem _ (List.mem_cons_self ..)) h
  conditional hform :=
    absurd (hform ▸ List.mem_cons_of_mem _ (List.mem_cons_of_mem _ (List.mem_cons_self ..))) h
  element helement := absurd (helement ▸ List.mem_cons_self ..) hkind
  unpacking hunpacking := absurd (hunpacking ▸ List.mem_cons_of_mem _ (List.mem_cons_self ..)) hkind

/-! ## Named children at the ends -/

theorem OpensNamed.namedChildren {n c : Node} (h : n.children.head? = some c)
    (hc : c.isNamed = true) : n.namedChildren.head? = some c := by
  obtain ⟨cs, hcs⟩ := List.head?_eq_some_iff.mp h
  rw [Node.namedChildren, hcs, List.filter_cons_of_pos hc, List.head?_cons]

theorem ClosesNamed.namedChildren {n c : Node} (h : n.children.getLast? = some c)
    (hc : c.isNamed = true) : n.namedChildren.getLast? = some c := by
  obtain ⟨cs, hcs⟩ := List.getLast?_eq_some_iff.mp h
  rw [Node.namedChildren, hcs, List.filter_append, List.filter_cons_of_pos hc, List.filter_nil,
    List.getLast?_concat]

end Node

/-! ## Lists of nodes with comments added -/

/-- Nodes in order, each with its counterpart, and comments between them in any places. -/
inductive Sprinkled (R : Node → Node → Prop) : List Node → List Node → Prop
  | nil : Sprinkled R [] []
  | kept {c c' : Node} {cs cs' : List Node} (h : R c c') (ht : Sprinkled R cs cs') :
      Sprinkled R (c :: cs) (c' :: cs')
  | added {m : Node} {cs cs' : List Node} (h : m.IsAdded) (ht : Sprinkled R cs cs') :
      Sprinkled R cs (m :: cs')

/-- The tree `n'` is the tree `n` with comments added inside of it, when nodes have the texts
`text` and `text'`. -/
inductive Commented (text text' : Node → String) : Node → Node → Prop
  | mk {n n' : Node} (hkind : n'.kind = n.kind) (hfield : n'.field = n.field)
      (hnamed : n'.isNamed = n.isNamed)
      (hchildren : Sprinkled (Commented text text') n.children n'.children)
      -- a comment before the first token or after the last one is not inside of the tree
      (hends : ∀ c, n'.children.head? = some c ∨ n'.children.getLast? = some c →
        c.isComment = false)
      (htext : n'.hasComment = false → text' n' = text n)
      (htoken : n.isToken = true → n'.hasComment = false)
      (hgrammar : n.IsGrammatical) : Commented text text' n n'

namespace Sprinkled

variable {R : Node → Node → Prop} {cs cs' : List Node}

/-- The children that are told from comments by some mark are what they were. -/
theorem filter {p : Node → Bool} (h : Sprinkled R cs cs') (hR : ∀ c c', R c c' → p c' = p c)
    (hadded : ∀ m : Node, m.IsAdded → p m = false) :
    List.Forall₂ R (cs.filter p) (cs'.filter p) := by
  induction h with
  | nil => exact .nil
  | added hm _ ih => rwa [List.filter_cons, if_neg (by rw [hadded _ hm]; exact Bool.false_ne_true)]
  | @kept c c' _ _ hc _ ih =>
    rw [List.filter_cons, List.filter_cons, hR c c' hc]
    split
    · exact .cons hc ih
    · exact ih

/-- Of children that include the comments, the counterparts are those with comments added. -/
theorem filter_added {p : Node → Bool} (h : Sprinkled R cs cs')
    (hR : ∀ c c', R c c' → p c' = p c) (hadded : ∀ m : Node, m.IsAdded → p m = true) :
    Sprinkled R (cs.filter p) (cs'.filter p) := by
  induction h with
  | nil => exact .nil
  | added hm _ ih => rw [List.filter_cons_of_pos (hadded _ hm)]; exact .added hm ih
  | @kept c c' _ _ hc _ ih =>
    rw [List.filter_cons, List.filter_cons, hR c c' hc]
    split
    · exact .kept hc ih
    · exact ih

theorem find? {p : Node → Bool} (h : Sprinkled R cs cs') (hR : ∀ c c', R c c' → p c' = p c)
    (hadded : ∀ m : Node, m.IsAdded → p m = false) :
    Option.Rel R (cs.find? p) (cs'.find? p) := by
  rw [← List.head?_filter, ← List.head?_filter]
  have hfilter := h.filter hR hadded
  generalize cs.filter p = ds, cs'.filter p = ds' at hfilter
  cases hfilter with
  | nil => exact .none
  | cons hc _ => exact .some hc

theorem any {p : Node → Bool} (h : Sprinkled R cs cs') (hR : ∀ c c', R c c' → p c' = p c)
    (hadded : ∀ m : Node, m.IsAdded → p m = false) : cs'.any p = cs.any p := by
  rw [← List.isSome_find?, ← List.isSome_find?]
  have hfind := h.find? hR hadded
  generalize cs.find? p = o, cs'.find? p = o' at hfind
  cases hfind <;> rfl

theorem head? (h : Sprinkled R cs cs') :
    (∃ c, cs'.head? = some c ∧ c.IsAdded) ∨ Option.Rel R cs.head? cs'.head? := by
  cases h with
  | nil => exact .inr .none
  | kept hc _ => exact .inr (.some hc)
  | added hm _ => exact .inl ⟨_, rfl, hm⟩

theorem getLast? (h : Sprinkled R cs cs') :
    (∃ c, cs'.getLast? = some c ∧ c.IsAdded) ∨ Option.Rel R cs.getLast? cs'.getLast? := by
  induction h with
  | nil => exact .inr .none
  | @kept c c' cs cs' hc _ ih =>
    rw [List.getLast?_cons, List.getLast?_cons]
    -- the last one is that of the rest, unless there is no rest
    rcases ih with ⟨m, hm, hadded⟩ | hrest
    · exact .inl ⟨m, by rw [hm]; rfl, hadded⟩
    · generalize cs.getLast? = o, cs'.getLast? = o' at hrest
      cases hrest with
      | none => exact .inr (.some hc)
      | some hd => exact .inr (.some hd)
  | @added m cs cs' hm _ ih =>
    rw [List.getLast?_cons]
    rcases ih with ⟨k, hk, hadded⟩ | hrest
    · exact .inl ⟨k, by rw [hk]; rfl, hadded⟩
    · generalize cs.getLast? = o, cs'.getLast? = o' at hrest
      cases hrest with
      | none => exact .inl ⟨m, rfl, hm⟩
      | some hd => exact .inr (.some hd)

theorem exists_right {c : Node} (h : Sprinkled R cs cs') (hc : c ∈ cs) : ∃ c' ∈ cs', R c c' := by
  induction h with
  | nil => cases hc
  | kept hR _ ih =>
    rcases List.mem_cons.mp hc with rfl | hc
    · exact ⟨_, List.mem_cons_self .., hR⟩
    · obtain ⟨c', hc', hrel⟩ := ih hc
      exact ⟨c', List.mem_cons_of_mem _ hc', hrel⟩
  | added _ _ ih =>
    obtain ⟨c', hc', hrel⟩ := ih hc
    exact ⟨c', List.mem_cons_of_mem _ hc', hrel⟩

theorem exists_left {c' : Node} (h : Sprinkled R cs cs') (hc : c' ∈ cs') :
    c'.IsAdded ∨ ∃ c ∈ cs, R c c' := by
  induction h with
  | nil => cases hc
  | kept hR _ ih =>
    rcases List.mem_cons.mp hc with rfl | hc
    · exact .inr ⟨_, List.mem_cons_self .., hR⟩
    · refine (ih hc).imp_right fun ⟨c, hmem, hrel⟩ => ?_
      exact ⟨c, List.mem_cons_of_mem _ hmem, hrel⟩
  | added hm _ ih =>
    rcases List.mem_cons.mp hc with rfl | hc
    · exact .inl hm
    · exact ih hc

end Sprinkled

namespace Node

variable {n c : Node}

theorem IsAdded.isComment {m : Node} (h : m.IsAdded) : m.isComment = true := by
  rw [Node.isComment, h.kind]
  rfl

theorem IsAdded.hasComment {m : Node} (h : m.IsAdded) : m.hasComment = true :=
  List.any_eq_true.mpr ⟨m, m.mem_preorder_self, h.isComment⟩

/-- A tree without comments has none in its children. -/
theorem hasComment_child (h : n.hasComment = false) (hc : c ∈ n.children) :
    c.hasComment = false := by
  rw [hasComment, List.any_eq_false] at h ⊢
  exact fun m hm => h m (mem_preorder_of_child hc hm)

theorem IsSign.hasComment (h : n.IsSign) : n.hasComment = false := by
  rw [Node.hasComment, preorder_eq, h.1, preorders, List.any_cons, h.2]
  rfl

end Node

theorem optionRel_orElse {R : Node → Node → Prop} {a a' b b' : Option Node}
    (ha : Option.Rel R a a') (hb : Option.Rel R b b') :
    Option.Rel R (a <|> b) (a' <|> b') := by
  cases ha with
  | none => exact hb
  | some h => exact .some h

theorem exists_of_optionRel {R : Node → Node → Prop} {c : Node} {o o' : Option Node}
    (h : Option.Rel R o o') (ho : o = some c) : ∃ c', o' = some c' ∧ R c c' := by
  subst ho
  cases h with
  | some hrel => exact ⟨_, rfl, hrel⟩

namespace Commented

variable {text text' : Node → String} {n n' : Node}

/-! ## What a node has in common with the commented one -/

theorem kind_eq (h : Commented text text' n n') : n'.kind = n.kind := by
  cases h with
  | mk hkind => exact hkind

theorem form_eq (h : Commented text text' n n') :
    ExprForm.ofKind? n'.kind = ExprForm.ofKind? n.kind := congrArg ExprForm.ofKind? h.kind_eq

theorem field_eq (h : Commented text text' n n') : n'.field = n.field := by
  cases h with
  | mk _ hfield => exact hfield

theorem isNamed_eq (h : Commented text text' n n') : n'.isNamed = n.isNamed := by
  cases h with
  | mk _ _ hnamed => exact hnamed

theorem children (h : Commented text text' n n') :
    Sprinkled (Commented text text') n.children n'.children := by
  cases h with
  | mk _ _ _ hchildren => exact hchildren

theorem text_eq (h : Commented text text' n n') (hno : n'.hasComment = false) :
    text' n' = text n := by
  cases h with
  | mk _ _ _ _ _ htext => exact htext hno

theorem hasComment_of_isToken (h : Commented text text' n n') (htoken : n.isToken = true) :
    n'.hasComment = false := by
  cases h with
  | mk _ _ _ _ _ _ hno => exact hno htoken

theorem isGrammatical (h : Commented text text' n n') : n.IsGrammatical := by
  cases h with
  | mk _ _ _ _ _ _ _ hgrammar => exact hgrammar

/-- A node without children, at another place. -/
theorem leaf (hn : n.children = []) (hn' : n'.IsSign) (hkind : n'.kind = n.kind)
    (hfield : n'.field = n.field) (hnamed : n'.isNamed = n.isNamed) (htext : text' n' = text n)
    (hgrammar : n.IsGrammatical) : Commented text text' n n' := by
  refine .mk hkind hfield hnamed ?_ ?_ (fun _ => htext) (fun _ => hn'.hasComment) hgrammar
  · rw [hn, hn'.1]
    exact .nil
  · rw [hn'.1]
    rintro c (hc | hc) <;> cases hc

theorem head? (h : Commented text text' n n') :
    Option.Rel (Commented text text') n.children.head? n'.children.head? := by
  cases h with
  | mk _ _ _ hchildren hends =>
    rcases hchildren.head? with ⟨c, hc, hadded⟩ | hrel
    · exact absurd hadded.isComment (by rw [hends c (.inl hc)]; exact Bool.false_ne_true)
    · exact hrel

theorem getLast? (h : Commented text text' n n') :
    Option.Rel (Commented text text') n.children.getLast? n'.children.getLast? := by
  cases h with
  | mk _ _ _ hchildren hends =>
    rcases hchildren.getLast? with ⟨c, hc, hadded⟩ | hrel
    · exact absurd hadded.isComment (by rw [hends c (.inr hc)]; exact Bool.false_ne_true)
    · exact hrel

theorem childInField? (h : Commented text text' n n') (field : String) :
    Option.Rel (Commented text text') (n.childInField? field) (n'.childInField? field) :=
  h.children.find? (fun c c' hc => by rw [hc.field_eq]) fun m hm => by rw [hm.field]; rfl

theorem any_kind (h : Commented text text' n n') {kind : String} (hkind : kind ≠ "comment") :
    (n'.children.any (·.kind == kind)) = n.children.any (·.kind == kind) :=
  h.children.any (fun c c' hc => by rw [hc.kind_eq]) fun m hm => by
    rw [hm.kind]
    exact beq_false_of_ne hkind.symm

theorem arrayElements (h : Commented text text' n n') :
    List.Forall₂ (Commented text text') n.arrayElements n'.arrayElements := by
  unfold Node.arrayElements Node.namedChildren
  rw [List.filter_filter, List.filter_filter]
  refine h.children.filter (fun c c' hc => by rw [hc.kind_eq, hc.isNamed_eq]) fun m hm => ?_
  rw [hm.kind]
  rfl

/-- Among the named children are the comments that were added. -/
theorem namedChildren (h : Commented text text' n n') :
    Sprinkled (Commented text text') n.namedChildren n'.namedChildren :=
  h.children.filter_added (fun _ _ hc => hc.isNamed_eq) fun _ hm => hm.isNamed

theorem opensNamed (h : Commented text text' n n') (hopens : n.OpensNamed) :
    ∃ c c', n.namedChildren.head? = some c ∧ n'.namedChildren.head? = some c'
      ∧ Commented text text' c c' := by
  obtain ⟨c, hc, hnamed⟩ := hopens
  obtain ⟨c', hc', hrel⟩ := exists_of_optionRel h.head? hc
  exact ⟨c, c', Node.OpensNamed.namedChildren hc hnamed,
    Node.OpensNamed.namedChildren hc' (hrel.isNamed_eq.trans hnamed), hrel⟩

theorem closesNamed (h : Commented text text' n n') (hcloses : n.ClosesNamed) :
    ∃ c c', n.namedChildren.getLast? = some c ∧ n'.namedChildren.getLast? = some c'
      ∧ Commented text text' c c' := by
  obtain ⟨c, hc, hnamed⟩ := hcloses
  obtain ⟨c', hc', hrel⟩ := exists_of_optionRel h.getLast? hc
  exact ⟨c, c', Node.ClosesNamed.namedChildren hc hnamed,
    Node.ClosesNamed.namedChildren hc' (hrel.isNamed_eq.trans hnamed), hrel⟩

theorem isSign {o o' : Node} (h : Commented text text' o o') (ho : o.IsSign) : o'.IsSign := by
  refine ⟨?_, by rw [Node.isComment, h.kind_eq]; exact ho.2⟩
  have hhead := h.head?
  rw [ho.1] at hhead
  cases hcs : o'.children with
  | nil => rfl
  | cons d ds =>
    rw [hcs] at hhead
    cases hhead

/-! ## Interpolated expressions -/

/-- What is interpolated in a string is so in the string with comments. -/
theorem interpolatedParts_eq_nil (h : Commented text text' n n')
    (hnil : Node.interpolatedParts n'.children = []) : Node.interpolatedParts n.children = [] := by
  -- on the size of the node, since the bodies of heredocs are smaller
  induction hsize : n.size using Nat.strongRecOn generalizing n n' with
  | ind size ih =>
    rw [Node.interpolatedParts_eq_nil_iff] at hnil ⊢
    intro c hc hnamed
    obtain ⟨c', hc', hrel⟩ := h.children.exists_right hc
    have hplain := hnil c' hc' (hrel.isNamed_eq.trans hnamed)
    rw [Node.interpolated_eq_nil_iff, hrel.kind_eq] at hplain
    refine Node.interpolated_eq_nil_iff.mpr (hplain.imp_right fun ⟨hbody, hparts⟩ => ⟨hbody, ?_⟩)
    exact ih c.size (hsize ▸ Node.size_lt_of_mem hc) hrel hparts rfl

/-- Where no comment is added nothing is interpolated that was not. -/
theorem interpolatedParts_eq_nil_iff (h : Commented text text' n n')
    (hno : n'.hasComment = false) :
    Node.interpolatedParts n'.children = [] ↔ Node.interpolatedParts n.children = [] := by
  refine ⟨h.interpolatedParts_eq_nil, fun hnil => ?_⟩
  induction hsize : n.size using Nat.strongRecOn generalizing n n' with
  | ind size ih =>
    rw [Node.interpolatedParts_eq_nil_iff] at hnil ⊢
    intro c' hc' hnamed
    have hno' := Node.hasComment_child hno hc'
    rcases h.children.exists_left hc' with hadded | ⟨c, hc, hrel⟩
    · exact absurd hadded.hasComment (by rw [hno']; exact Bool.false_ne_true)
    · have hplain := hnil c hc (hrel.isNamed_eq.symm.trans hnamed)
      rw [Node.interpolated_eq_nil_iff] at hplain
      rw [Node.interpolated_eq_nil_iff, hrel.kind_eq]
      refine hplain.imp_right fun ⟨hbody, hparts⟩ => ⟨hbody, ?_⟩
      exact ih c.size (hsize ▸ Node.size_lt_of_mem hc) hrel hno' hparts rfl

end Commented

end StaticReflection
