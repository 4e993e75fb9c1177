import StaticReflection.Proofs.Declaration.Regions

/-!
# Concealed declarations

The search for class-likes goes through statements and, inside of them, through those of bare
blocks and of namespaces with braces. The body of a condition, a loop or a function is part of
a statement that the search does not enter, and so are the declarations in it.

> `ClassLike.all_complete_iff`: what is found are named declarations of the tree, each once
> and in source order, and they are all of them exactly if no statement that the search comes to
> conceals one.

A declaration that is found is one of the `openStatements`. These are a part of the tree in its
order (`openStatements_sublist`), so nothing is found twice, and what is missing is missing in
some statement (`filter_openStatements_eq_iff`).
-/

namespace StaticReflection

namespace Node

theorem preorder_sublist_preorders {n : Node} {cs : List Node} (h : n ∈ cs) :
    n.preorder.Sublist (preorders cs) := by
  induction cs with
  | nil => cases h
  | cons c rest ih =>
    rw [preorders]
    rcases List.mem_cons.mp h with rfl | h
    · exact List.sublist_append_left ..
    · exact (ih h).trans (List.sublist_append_right ..)

end Node

namespace ClassLike

/-- Whether a node declares a class-like and gives it a name. -/
def isNamed (n : Node) : Bool :=
  (ClassKind.ofNodeKind? n.kind).isSome && (n.childInField? "name").isSome

/-- The named declarations among some nodes and inside of them, in source order. -/
def declarations (cs : List Node) : List Node := (Node.preorders cs).filter isNamed

/-- The statements in a statement that is a bare block or a namespace with braces. -/
def inner (c : Node) : List Node :=
  if c.kind = "namespace_definition" then ((c.childInField? "body").map Node.children).getD []
  else if c.kind = "compound_statement" then c.children
  else []

theorem sizes_inner_lt (c : Node) : Node.sizes (inner c) < c.size := by
  have hchildren := Node.size_eq c
  unfold inner
  split
  · cases hbody : c.childInField? "body" with
    | none => exact Node.size_pos c
    | some body =>
      have hlt := Node.size_lt_of_mem (Node.mem_of_childInField? hbody)
      have hsize := Node.size_eq body
      show Node.sizes body.children < c.size
      omega
  · split
    · omega
    · exact Node.size_pos c

/-- The statements that the search comes to, each before those in it. -/
def openStatements (cs : List Node) : List Node :=
  match cs with
  | [] => []
  | c :: rest => c :: (openStatements (inner c) ++ openStatements rest)
termination_by Node.sizes cs
decreasing_by
  all_goals simp only [Node.sizes]
  · have := sizes_inner_lt c
    omega
  · have := Node.size_pos c
    omega

theorem openStatements_nil : openStatements [] = [] := by rw [openStatements]

theorem openStatements_cons (c : Node) (rest : List Node) :
    openStatements (c :: rest) = c :: (openStatements (inner c) ++ openStatements rest) := by
  rw [openStatements]

theorem filter_openStatements_cons (c : Node) (rest : List Node) :
    (openStatements (c :: rest)).filter isNamed
      = [c].filter isNamed ++ ((openStatements (inner c)).filter isNamed
        ++ (openStatements rest).filter isNamed) := by
  rw [openStatements_cons, ← List.singleton_append, List.filter_append, List.filter_append]

/-- A statement has named declarations inside that are not in the statements in it. -/
def Conceals (c : Node) : Prop := declarations c.children ≠ declarations (inner c)

theorem not_conceals_iff {c : Node} :
    ¬Conceals c ↔ declarations c.children = declarations (inner c) := Classical.not_not

/-- A statement other than a block or a namespace conceals whatever is declared in it, so that a
declaration in the body of a condition or of a function is not found. -/
theorem conceals_iff {c : Node} (hnamespace : c.kind ≠ "namespace_definition")
    (hblock : c.kind ≠ "compound_statement") :
    Conceals c ↔ ∃ d ∈ Node.preorders c.children, isNamed d := by
  have hinner : inner c = [] := by
    unfold inner
    rw [if_neg hnamespace, if_neg hblock]
  unfold Conceals declarations
  rw [hinner, Node.preorders, List.filter_nil, Ne, List.filter_eq_nil_iff]
  simp only [Classical.not_forall, Classical.not_not, exists_prop]

theorem preorders_inner_sublist (c : Node) :
    (Node.preorders (inner c)).Sublist (Node.preorders c.children) := by
  unfold inner
  split
  · cases hbody : c.childInField? "body" with
    | none => exact List.nil_sublist _
    | some body =>
      have hpreorder := Node.preorder_sublist_preorders (Node.mem_of_childInField? hbody)
      rw [Node.preorder_eq] at hpreorder
      exact (List.sublist_cons_self ..).trans hpreorder
  · split
    · exact List.Sublist.refl _
    · exact List.nil_sublist _

/-- The statements that the search comes to stand in the order of the tree. -/
theorem openStatements_sublist (cs : List Node) :
    (openStatements cs).Sublist (Node.preorders cs) := by
  match cs with
  | [] =>
    rw [openStatements_nil]
    exact List.nil_sublist _
  | c :: rest =>
    have hinner := (openStatements_sublist (inner c)).trans (preorders_inner_sublist c)
    rw [openStatements_cons, Node.preorders, Node.preorder_eq, List.cons_append]
    exact (hinner.append (openStatements_sublist rest)).cons_cons c
termination_by Node.sizes cs
decreasing_by
  all_goals simp only [Node.sizes]
  · have := sizes_inner_lt c
    omega
  · have := Node.size_pos c
    omega

/-! ## What is found -/

section

variable {text : Node → String}

theorem inner_eq (text : Node → String) (c : Node) :
    inner c = match formOf text c with
      | .braces _ body => body.children
      | .block => c.children
      | _ => [] := by
  unfold inner formOf
  by_cases hnamespace : c.kind = "namespace_definition"
  · rw [if_pos hnamespace, if_pos hnamespace]
    cases c.childInField? "body" <;> rfl
  · rw [if_neg hnamespace, if_neg hnamespace]
    by_cases hblock : c.kind = "compound_statement"
    · rw [hblock]
      rfl
    · rw [if_neg hblock]
      by_cases huse : c.kind = "namespace_use_declaration"
      · rw [if_pos huse]
      · rw [if_neg huse]
        cases ClassKind.ofNodeKind? c.kind with
        | some kind => rfl
        | none =>
          simp only
          rw [if_neg hblock]

theorem isNamed_eq (text : Node → String) (c : Node) :
    isNamed c = match formOf text c with
      | .classLike _ name => name.isSome
      | _ => false := by
  unfold isNamed formOf
  by_cases hnamespace : c.kind = "namespace_definition"
  · rw [hnamespace]
    cases c.childInField? "body" <;> rfl
  · rw [if_neg hnamespace]
    by_cases huse : c.kind = "namespace_use_declaration"
    · rw [huse]
      rfl
    · rw [if_neg huse]
      cases ClassKind.ofNodeKind? c.kind with
      | some kind => exact Bool.true_and _
      | none =>
        by_cases hblock : c.kind = "compound_statement"
        · simp only [Option.isSome_none, Bool.false_and, if_pos hblock]
        · simp only [Option.isSome_none, Bool.false_and, if_neg hblock]

theorem kind_of_formOf {n : Node} {kind : ClassKind} {name : Option Node}
    (h : formOf text n = .classLike kind name) : ClassKind.ofNodeKind? n.kind = some kind := by
  unfold formOf at h
  split at h
  · simp only at h
    split at h <;> cases h
  · split at h
    · cases h
    · split at h
      next kind' hkind => exact (StatementForm.classLike.inj h).1 ▸ hkind
      next => split at h <;> cases h

/-- The declarations that are found are the named ones among the statements come to. -/
theorem nodes_found (before cs : List Node) (s : NameScope) :
    (found text before cs s).map ClassLike.node = (openStatements cs).filter isNamed := by
  match cs with
  | [] =>
    rw [found_nil, openStatements_nil]
    rfl
  | c :: rest =>
    have hlt := sizes_inner_lt c
    have hinner (scope : NameScope) := nodes_found [] (inner c) scope
    have hstatement : (foundIn text before c s).map ClassLike.node
        = [c].filter isNamed ++ (openStatements (inner c)).filter isNamed := by
      rw [inner_eq text] at hinner ⊢
      rw [List.filter_cons, List.filter_nil, isNamed_eq text]
      unfold foundIn
      revert hinner
      cases formOf text c with
      | braces name body => exact fun hinner => hinner _
      | block => exact fun hinner => hinner _
      | classLike kind name =>
        intro _
        rw [openStatements_nil]
        cases name <;> rfl
      | _ =>
        intro _
        rw [openStatements_nil]
        rfl
    rw [found_cons, List.map_append, hstatement, nodes_found (c :: before) rest,
      filter_openStatements_cons, List.append_assoc]
termination_by Node.sizes cs
decreasing_by
  all_goals simp only [Node.sizes]
  · omega
  · have := Node.size_pos c
    omega

end

theorem openDeclarations_sublist (cs : List Node) :
    ((openStatements cs).filter isNamed).Sublist (declarations cs) :=
  (openStatements_sublist cs).filter isNamed

theorem declarations_cons (c : Node) (rest : List Node) :
    declarations (c :: rest)
      = [c].filter isNamed ++ (declarations c.children ++ declarations rest) := by
  unfold declarations
  rw [Node.preorders, Node.preorder_eq, List.cons_append, ← List.singleton_append,
    List.filter_append, List.filter_append]

/-- Parts of two lists that make up the whole of both are the whole of each. -/
theorem append_eq_append_iff_of_sublist {α : Type} {as bs as' bs' : List α} (ha : as.Sublist as')
    (hb : bs.Sublist bs') : as ++ bs = as' ++ bs' ↔ as = as' ∧ bs = bs' := by
  refine ⟨fun h => ?_, fun h => by rw [h.1, h.2]⟩
  have hlength := congrArg List.length h
  rw [List.length_append, List.length_append] at hlength
  have hle := ha.length_le
  have hle' := hb.length_le
  exact ⟨ha.eq_of_length (by omega), hb.eq_of_length (by omega)⟩

/-- All declarations are found exactly if no statement that the search comes to conceals one. -/
theorem filter_openStatements_eq_iff (cs : List Node) :
    (openStatements cs).filter isNamed = declarations cs
      ↔ ∀ c ∈ openStatements cs, ¬Conceals c := by
  match cs with
  | [] =>
    rw [openStatements_nil]
    exact iff_of_true rfl fun _ h => by cases h
  | c :: rest =>
    have hinner := filter_openStatements_eq_iff (inner c)
    have hrest := filter_openStatements_eq_iff rest
    -- what is found in the statement, what is in its statements, and what is in it at all
    have hfound := openDeclarations_sublist (inner c)
    have hheld : (declarations (inner c)).Sublist (declarations c.children) :=
      (preorders_inner_sublist c).filter isNamed
    have hstatement : (openStatements (inner c)).filter isNamed = declarations c.children
        ↔ ¬Conceals c ∧ ∀ d ∈ openStatements (inner c), ¬Conceals d := by
      rw [not_conceals_iff, ← hinner]
      constructor
      · intro h
        have hall : declarations (inner c) = declarations c.children :=
          hheld.eq_of_length (Nat.le_antisymm hheld.length_le (h ▸ hfound.length_le))
        exact ⟨hall.symm, h.trans hall.symm⟩
      · rintro ⟨hall, h⟩
        exact h.trans hall.symm
    rw [filter_openStatements_cons, declarations_cons, List.append_right_inj,
      append_eq_append_iff_of_sublist (hfound.trans hheld) (openDeclarations_sublist rest),
      hstatement, hrest, openStatements_cons]
    simp only [List.mem_cons, List.mem_append, or_imp, forall_and, forall_eq, and_assoc]
termination_by Node.sizes cs
decreasing_by
  all_goals simp only [Node.sizes]
  · have := sizes_inner_lt c
    omega
  · have := Node.size_pos c
    omega

/-- The class-likes of a file are named declarations of its tree, each once, in source order
and as they are declared: those among the statements that the search comes to. They are all of
them if and only if none of these statements conceals one. -/
theorem all_complete_iff (p : ParsedSource) :
    ((all p).map ClassLike.node).Sublist (declarations p.root.children)
      ∧ (∀ c ∈ all p, ClassKind.ofNodeKind? c.node.kind = some c.kind
        ∧ ∃ n, c.node.childInField? "name" = some n ∧ c.shortName = p.text n)
      ∧ (all p).map ClassLike.node = (openStatements p.root.children).filter isNamed
      ∧ ((all p).map ClassLike.node = declarations p.root.children
        ↔ ∀ c ∈ openStatements p.root.children, ¬Conceals c) := by
  have hnodes : (all p).map ClassLike.node = (openStatements p.root.children).filter isNamed :=
    nodes_found [] p.root.children NameScope.empty
  refine ⟨hnodes ▸ openDeclarations_sublist _, fun c hc => ?_, hnodes,
    hnodes ▸ filter_openStatements_eq_iff _⟩
  obtain ⟨place, kind, n, _, hform, he⟩ := StatementPlace.exists_of_mem_found hc
  rw [he]
  exact ⟨kind_of_formOf hform, n, name_of_formOf hform, rfl⟩

end ClassLike

end StaticReflection
