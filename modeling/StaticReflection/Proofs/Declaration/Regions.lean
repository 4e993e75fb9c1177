import StaticReflection.Declaration.ClassLike

/-!
# Namespace regions

A class-like stands in some lists of statements: that of the file, those of the namespaces
with braces around it, and those of bare blocks. Its `StatementPlace` says which statements
of each list come before it. Those that come before it within the innermost namespace with
braces are its `StatementPlace.region`; a namespace without braces among them begins a region
of its own.

> `ClassLike.all_scoped`: every class-like that is found has the namespace of the latest
> namespace without braces in its region, or else of the braces around it, and the imports
> that the declarations since then make, of which the last one for an alias counts. What is
> found up to a class-like depends on its place only, and on the texts of its nodes.

The search carries a scope from one statement to the next. `ClassLike.scopeAfter` is what one
statement makes of it, and a walk through a list is the sequence of these steps
(`ClassLike.found_append`). A bare block leaves the scope around it alone as long as all
imports in it are those of namespaces in it (`ImportsInNamespaces`).
-/

namespace StaticReflection

/-- What a statement is to the search for class-likes. -/
inductive StatementForm where
  /-- A namespace with braces, by its name. -/
  | braces (name : String) (body : Node)
  /-- A namespace without braces. -/
  | region (name : String)
  | imports
  | classLike (kind : ClassKind) (name : Option Node)
  /-- A bare block. -/
  | block
  | other

namespace ClassLike

/-- The form of a statement. -/
def formOf (text : Node → String) (n : Node) : StatementForm :=
  if n.kind = "namespace_definition" then
    let name := ((n.childInField? "name").map text).getD ""
    match n.childInField? "body" with
    | some body => .braces name body
    | none => .region name
  else if n.kind = "namespace_use_declaration" then .imports
  else
    match ClassKind.ofNodeKind? n.kind with
    | some kind => .classLike kind (n.childInField? "name")
    | none => if n.kind = "compound_statement" then .block else .other

section

variable (text : Node → String)

/-- The name of a namespace without braces. -/
def regionName? (n : Node) : Option String :=
  match formOf text n with
  | .region name => some name
  | _ => none

/-- Whether a statement declares imports. -/
def isImports (n : Node) : Bool :=
  match formOf text n with
  | .imports => true
  | _ => false

/-- The class-likes that are found in sibling nodes, given those before them and the scope of
the first. -/
def found (before cs : List Node) (s : NameScope) : List ClassLike := (walk text before cs s).1

/-- The class-likes that are found in one statement. -/
def foundIn (before : List Node) (c : Node) (s : NameScope) : List ClassLike :=
  match formOf text c with
  | .braces name body => found text [] body.children ⟨name, []⟩
  | .classLike kind name => (name.map fun n => ⟨⟨c, before⟩, kind, text n, s⟩).toList
  | .block => found text [] c.children s
  | _ => []

/-- The scope after a statement. -/
def scopeAfter (s : NameScope) (c : Node) : NameScope :=
  match formOf text c with
  | .region name => ⟨name, []⟩
  | .imports => { s with imports := Imports.addDeclaration text c s.imports }
  | .block => { s with imports := (walk text [] c.children s).2 }
  | _ => s

variable {text}

theorem found_nil (before : List Node) (s : NameScope) : found text before [] s = [] := by
  unfold found
  rw [walk]

theorem found_cons (before : List Node) (c : Node) (rest : List Node) (s : NameScope) :
    found text before (c :: rest) s
      = foundIn text before c s ++ found text (c :: before) rest (scopeAfter text s c) := by
  unfold foundIn scopeAfter formOf found
  rw [walk]
  by_cases hnamespace : c.kind = "namespace_definition"
  · rw [if_pos hnamespace, if_pos hnamespace]
    simp only
    cases hbody : c.childInField? "body" <;> rfl
  · rw [if_neg hnamespace, if_neg hnamespace]
    by_cases huse : c.kind = "namespace_use_declaration"
    · rw [if_pos huse, if_pos huse]
      rfl
    · rw [if_neg huse, if_neg huse]
      cases hkind : ClassKind.ofNodeKind? c.kind with
      | some kind => cases hname : c.childInField? "name" <;> rfl
      | none =>
        by_cases hblock : c.kind = "compound_statement"
        · simp only
          rw [if_pos hblock, if_pos hblock]
        · simp only
          rw [if_neg hblock, if_neg hblock]
          rfl

/-- The imports of the first scope after some statements. -/
theorem walk_imports_cons (before : List Node) (c : Node) (rest : List Node) (s : NameScope) :
    (walk text before (c :: rest) s).2 = match formOf text c with
      | .region _ => s.imports
      | _ => (walk text (c :: before) rest (scopeAfter text s c)).2 := by
  unfold scopeAfter formOf
  rw [walk]
  by_cases hnamespace : c.kind = "namespace_definition"
  · rw [if_pos hnamespace, if_pos hnamespace]
    simp only
    cases hbody : c.childInField? "body" <;> rfl
  · rw [if_neg hnamespace, if_neg hnamespace]
    by_cases huse : c.kind = "namespace_use_declaration"
    · rw [if_pos huse, if_pos huse]
    · rw [if_neg huse, if_neg huse]
      cases hkind : ClassKind.ofNodeKind? c.kind with
      | some kind => cases hname : c.childInField? "name" <;> rfl
      | none =>
        by_cases hblock : c.kind = "compound_statement"
        · simp only
          rw [if_pos hblock, if_pos hblock]
        · simp only
          rw [if_neg hblock, if_neg hblock]

/-- What is found in statements is found in the first ones, and then in the others with the
scope that these leave. -/
theorem found_append (before cs ds : List Node) (s : NameScope) :
    found text before (cs ++ ds) s
      = found text before cs s
        ++ found text (cs.reverse ++ before) ds (cs.foldl (scopeAfter text) s) := by
  induction cs generalizing before s with
  | nil =>
    rw [found_nil]
    rfl
  | cons c rest ih =>
    rw [List.cons_append, found_cons, found_cons, ih, List.append_assoc, List.reverse_cons,
      List.append_assoc]
    rfl

theorem body_of_formOf {n body : Node} {name : String} (h : formOf text n = .braces name body) :
    n.childInField? "body" = some body := by
  unfold formOf at h
  split at h
  · simp only at h
    split at h
    next b hb => exact (StatementForm.braces.inj h).2 ▸ hb
    next => cases h
  · split at h
    · cases h
    · split at h
      · cases h
      · split at h <;> cases h

theorem size_body_lt {n body : Node} {name : String} (h : formOf text n = .braces name body) :
    Node.sizes body.children < n.size := by
  have hbody := Node.size_lt_of_mem (Node.mem_of_childInField? (body_of_formOf h))
  have hchildren := Node.size_eq body
  omega

theorem name_of_formOf {n name : Node} {kind : ClassKind}
    (h : formOf text n = .classLike kind (some name)) : n.childInField? "name" = some name := by
  unfold formOf at h
  split at h
  · simp only at h
    split at h <;> cases h
  · split at h
    · cases h
    · split at h
      · exact (StatementForm.classLike.inj h).2
      · split at h <;> cases h

end

end ClassLike

/-! ## Texts that agree

What is found depends on the texts of the nodes of the statements and on no other. -/

namespace Imports

variable {text text' : Node → String}

theorem addClause_congr {clause : Node} (h : ∀ m ∈ clause.preorder, text' m = text m)
    (shared : String) (imports : Imports) :
    addClause text' shared clause imports = addClause text shared clause imports := by
  have hchild {c : Node} (hc : c ∈ clause.children) : text' c = text c :=
    h c (Node.mem_preorder_of_child hc (Node.mem_preorder_self c))
  have halias {a : Node} (ha : aliasNode? clause = some a) : text' a = text a := by
    unfold aliasNode? at ha
    cases hfield : clause.childInField? "alias" with
    | some b =>
      rw [hfield] at ha
      cases ha
      exact hchild (Node.mem_of_childInField? hfield)
    | none =>
      rw [hfield] at ha
      obtain ⟨part, hpart, ha⟩ := Option.bind_eq_some_iff.mp ha
      exact h a (Node.mem_preorder_of_child (List.mem_of_find?_eq_some hpart)
        (Node.mem_preorder_of_child (List.mem_of_find?_eq_some ha) (Node.mem_preorder_self a)))
  unfold addClause
  cases hpath : pathNode? clause with
  | none => rfl
  | some path =>
    obtain ⟨kind, _, hkind⟩ := List.exists_of_findSome?_eq_some hpath
    simp only
    rw [hchild (List.mem_of_find?_eq_some hkind)]
    cases hnode : aliasNode? clause with
    | none => rfl
    | some a =>
      simp only
      rw [halias hnode]

theorem addParts_congr {parts : List Node} (h : ∀ n ∈ parts, ∀ m ∈ n.preorder, text' m = text m)
    (shared : String) (imports : Imports) :
    addParts text' shared parts imports = addParts text shared parts imports := by
  induction parts generalizing shared imports with
  | nil => rw [addParts, addParts]
  | cons n rest ih =>
    have hn := h n (List.mem_cons_self ..)
    have hrest := ih fun m hm => h m (List.mem_cons_of_mem _ hm)
    have hgroup {members : List Node} (hmembers : ∀ c ∈ members, c ∈ n.children)
        (imports : Imports) :
        members.foldl (fun acc c => addClause text' shared c acc) imports
          = members.foldl (fun acc c => addClause text shared c acc) imports := by
      induction members generalizing imports with
      | nil => rw [List.foldl_nil, List.foldl_nil]
      | cons c members ih =>
        have hc : ∀ m ∈ c.preorder, text' m = text m := fun m hm =>
          hn m (Node.mem_preorder_of_child (hmembers c (List.mem_cons_self ..)) hm)
        rw [List.foldl_cons, List.foldl_cons, addClause_congr hc]
        exact ih (fun d hd => hmembers d (List.mem_cons_of_mem _ hd)) _
    rw [addParts, addParts, hn n (Node.mem_preorder_self n), hrest, hrest, hrest, hrest,
      addClause_congr hn, hgroup fun c hc => (List.mem_filter.mp hc).1]

theorem addDeclaration_congr {n : Node} (h : ∀ m ∈ n.preorder, text' m = text m)
    (imports : Imports) : addDeclaration text' n imports = addDeclaration text n imports := by
  unfold addDeclaration
  rw [addParts_congr fun c hc m hm => h m (Node.mem_preorder_of_child hc hm)]

end Imports

namespace ClassLike

variable {text text' : Node → String}

theorem formOf_congr {n : Node} (h : ∀ m ∈ n.preorder, text' m = text m) :
    formOf text' n = formOf text n := by
  have hname : (n.childInField? "name").map text' = (n.childInField? "name").map text := by
    cases hc : n.childInField? "name" with
    | none => rfl
    | some c =>
      have := h c (Node.mem_preorder_of_child (Node.mem_of_childInField? hc)
        (Node.mem_preorder_self c))
      rw [Option.map_some, Option.map_some, this]
  unfold formOf
  rw [hname]

theorem scopeAfter_congr {c : Node} (h : ∀ m ∈ c.preorder, text' m = text m)
    (hblock : ∀ s, walk text' [] c.children s = walk text [] c.children s) (s : NameScope) :
    scopeAfter text' s c = scopeAfter text s c := by
  unfold scopeAfter
  rw [formOf_congr h, Imports.addDeclaration_congr h, hblock]

theorem walk_congr {before cs : List Node} (h : ∀ n ∈ cs, ∀ m ∈ n.preorder, text' m = text m)
    (s : NameScope) : walk text' before cs s = walk text before cs s := by
  match cs with
  | [] => rw [walk, walk]
  | c :: rest =>
    have hc := h c (List.mem_cons_self ..)
    have hrest (s : NameScope) : walk text' (c :: before) rest s = walk text (c :: before) rest s :=
      walk_congr (fun n hn => h n (List.mem_cons_of_mem _ hn)) s
    have hblock (s : NameScope) : walk text' [] c.children s = walk text [] c.children s :=
      have := Node.size_eq c
      walk_congr (fun d hd m hm => hc m (Node.mem_preorder_of_child hd hm)) s
    have hafter := scopeAfter_congr hc hblock s
    have hfound : foundIn text' before c s = foundIn text before c s := by
      unfold foundIn found
      rw [formOf_congr hc, hblock]
      cases hform : formOf text c with
      | braces name body =>
        have := size_body_lt hform
        have hbody (m : Node) (hm : m ∈ body.preorder) : text' m = text m :=
          hc m (Node.mem_preorder_of_child (Node.mem_of_childInField? (body_of_formOf hform)) hm)
        simp only
        rw [walk_congr fun d hd m hm => hbody m (Node.mem_preorder_of_child hd hm)]
      | classLike kind name =>
        cases name with
        | none => rfl
        | some n =>
          have hn : text' n = text n := hc n (Node.mem_preorder_of_child
            (Node.mem_of_childInField? (name_of_formOf hform)) (Node.mem_preorder_self n))
          simp only [Option.map_some]
          rw [hn]
      | _ => rfl
    refine Prod.ext ?_ ?_
    · show found text' before (c :: rest) s = found text before (c :: rest) s
      rw [found_cons, found_cons, hfound, hafter]
      unfold found
      rw [hrest]
    · rw [walk_imports_cons, walk_imports_cons, formOf_congr hc, hafter, hrest]
termination_by Node.sizes cs
decreasing_by
  all_goals simp only [Node.sizes]
  · have := Node.size_pos c
    omega
  · omega
  · omega

theorem foldl_scopeAfter_congr {cs : List Node} (h : ∀ n ∈ cs, ∀ m ∈ n.preorder, text' m = text m)
    (s : NameScope) : cs.foldl (scopeAfter text') s = cs.foldl (scopeAfter text) s := by
  induction cs generalizing s with
  | nil => rw [List.foldl_nil, List.foldl_nil]
  | cons c rest ih =>
    have hc := h c (List.mem_cons_self ..)
    have hblock (s : NameScope) : walk text' [] c.children s = walk text [] c.children s :=
      walk_congr (fun d hd m hm => hc m (Node.mem_preorder_of_child hd hm)) s
    have hrest := ih (fun n hn => h n (List.mem_cons_of_mem _ hn)) (scopeAfter text' s c)
    rw [List.foldl_cons, List.foldl_cons, hrest, scopeAfter_congr hc hblock]

end ClassLike

/-! ## Places -/

/-- Where a statement stands in a list of statements or in one of those within it: the
statements before it in its own list, and before what leads to it in each list around. -/
inductive StatementPlace where
  | here (before : List Node)
  | inBlock (before : List Node) (inner : StatementPlace)
  | inBraces (before : List Node) (name : String) (inner : StatementPlace)

namespace StatementPlace

open ClassLike

/-- The statement `c` stands at a place in some statements. -/
inductive Holds (text : Node → String) (c : Node) : StatementPlace → List Node → Prop
  | here (before after : List Node) : Holds text c (.here before) (before ++ c :: after)
  | inBlock {inner : StatementPlace} {b : Node} (before after : List Node)
      (hb : formOf text b = .block) (h : Holds text c inner b.children) :
      Holds text c (.inBlock before inner) (before ++ b :: after)
  | inBraces {inner : StatementPlace} {n body : Node} {name : String} (before after : List Node)
      (hn : formOf text n = .braces name body) (h : Holds text c inner body.children) :
      Holds text c (.inBraces before name inner) (before ++ n :: after)

/-- The statements before a place in its own list, the nearest first, given what is before
the outermost list. -/
def siblings (before : List Node) : StatementPlace → List Node
  | .here own => own.reverse ++ before
  | .inBlock _ inner => inner.siblings []
  | .inBraces _ _ inner => inner.siblings []

/-- Whether the list that a place is in is that of the file or of a namespace: one with
braces, or one without that begins before the place in the list. Given whether the outermost
list is that of a bare block. -/
def isInNamespace (text : Node → String) (inBlock : Bool) : StatementPlace → Bool
  | .here before => !inBlock || before.any fun n => (regionName? text n).isSome
  | .inBlock _ inner => inner.isInNamespace text true
  | .inBraces _ _ inner => inner.isInNamespace text false

/-- The name of the innermost namespace with braces around a place, and the statements before
the place within it, given those of the outermost list. -/
def region (around : String) (earlier : List Node) : StatementPlace → String × List Node
  | .here before => (around, earlier ++ before)
  | .inBlock before inner => inner.region around (earlier ++ before)
  | .inBraces _ name inner => inner.region name []

/-- The same place with one more statement in front. -/
def after (c : Node) : StatementPlace → StatementPlace
  | .here before => .here (c :: before)
  | .inBlock before inner => .inBlock (c :: before) inner
  | .inBraces before name inner => .inBraces (c :: before) name inner

section

variable (text : Node → String)

/-- The scope at a place, given that of the outermost list. -/
def scopeFrom (s : NameScope) : StatementPlace → NameScope
  | .here before => before.foldl (scopeAfter text) s
  | .inBlock before inner => inner.scopeFrom (before.foldl (scopeAfter text) s)
  | .inBraces _ name inner => inner.scopeFrom ⟨name, []⟩

/-- The class-likes that are found before a place. -/
def foundBefore (before : List Node) (s : NameScope) : StatementPlace → List ClassLike
  | .here own => found text before own s
  | .inBlock own inner =>
    found text before own s ++ inner.foundBefore [] (own.foldl (scopeAfter text) s)
  | .inBraces own name inner => found text before own s ++ inner.foundBefore [] ⟨name, []⟩

end

section

variable {text : Node → String} {c : Node} {place : StatementPlace} {cs : List Node}

theorem Holds.after (h : place.Holds text c cs) (d : Node) :
    (place.after d).Holds text c (d :: cs) := by
  cases h with
  | here before after => exact .here (d :: before) after
  | inBlock before after hb h => exact .inBlock (d :: before) after hb h
  | inBraces before after hn h => exact .inBraces (d :: before) after hn h

theorem not_holds_nil : ¬place.Holds text c [] := by
  intro h
  generalize hcs : ([] : List Node) = cs at h
  cases h with
  | here before => cases before <;> cases hcs
  | inBlock before => cases before <;> cases hcs
  | inBraces before => cases before <;> cases hcs

/-- A place is the first statement or in it, or after it. -/
theorem Holds.of_cons {d : Node} (h : place.Holds text c (d :: cs)) :
    (place = .here [] ∧ c = d)
      ∨ (∃ inner, place = .inBlock [] inner ∧ formOf text d = .block
        ∧ inner.Holds text c d.children)
      ∨ (∃ name body inner, place = .inBraces [] name inner ∧ formOf text d = .braces name body
        ∧ inner.Holds text c body.children)
      ∨ ∃ later : StatementPlace, place = later.after d ∧ later.Holds text c cs := by
  generalize hds : d :: cs = ds at h
  cases h with
  | here before after =>
    cases before with
    | nil =>
      cases hds
      exact .inl ⟨rfl, rfl⟩
    | cons e before =>
      cases hds
      exact .inr (.inr (.inr ⟨.here before, rfl, .here before after⟩))
  | inBlock before after hb h =>
    cases before with
    | nil =>
      cases hds
      exact .inr (.inl ⟨_, rfl, hb, h⟩)
    | cons e before =>
      cases hds
      exact .inr (.inr (.inr ⟨.inBlock before _, rfl, .inBlock before after hb h⟩))
  | inBraces before after hn h =>
    cases before with
    | nil =>
      cases hds
      exact .inr (.inr (.inl ⟨_, _, _, rfl, hn, h⟩))
    | cons e before =>
      cases hds
      exact .inr (.inr (.inr ⟨.inBraces before _ _, rfl, .inBraces before after hn h⟩))

theorem scopeFrom_after (s : NameScope) (d : Node) :
    (place.after d).scopeFrom text s = place.scopeFrom text (scopeAfter text s d) := by
  cases place <;> rfl

theorem siblings_after (before : List Node) (d : Node) :
    (place.after d).siblings before = place.siblings (d :: before) := by
  cases place with
  | here own =>
    rw [StatementPlace.after, siblings, siblings, List.reverse_cons, List.append_assoc]
    rfl
  | inBlock own inner => rfl
  | inBraces own name inner => rfl

theorem isInNamespace_after (inBlock : Bool) (d : Node) :
    (place.after d).isInNamespace text inBlock
      = place.isInNamespace text (inBlock && (regionName? text d).isNone) := by
  cases place with
  | here own =>
    show (!inBlock || ((regionName? text d).isSome || _)) = _
    rw [isInNamespace, ← Bool.or_assoc]
    cases inBlock <;> cases regionName? text d <;> rfl
  | inBlock own inner => rfl
  | inBraces own name inner => rfl

/-- A class-like with a name is found at its place, with the scope there, after what is found
before the place. -/
theorem Holds.found (h : place.Holds text c cs) {kind : ClassKind} {n : Node}
    (hc : formOf text c = .classLike kind (some n)) (before : List Node) (s : NameScope) :
    ∃ rest, ClassLike.found text before cs s = place.foundBefore text before s
      ++ ⟨⟨c, place.siblings before⟩, kind, text n, place.scopeFrom text s⟩ :: rest := by
  induction h generalizing before s with
  | here own later =>
    rw [found_append, found_cons]
    unfold foundIn
    rw [hc]
    exact ⟨_, rfl⟩
  | inBlock own later hb _ ih =>
    obtain ⟨rest, hrest⟩ := ih [] (own.foldl (scopeAfter text) s)
    rw [found_append, found_cons]
    unfold foundIn
    rw [hb]
    simp only
    rw [hrest, foundBefore, List.append_assoc]
    exact ⟨_, (List.append_assoc _ _ _).symm⟩
  | inBraces own later hn _ ih =>
    obtain ⟨rest, hrest⟩ := ih [] ⟨_, []⟩
    rw [found_append, found_cons]
    unfold foundIn
    rw [hn]
    simp only
    rw [hrest, foundBefore, List.append_assoc]
    exact ⟨_, (List.append_assoc _ _ _).symm⟩

/-- A statement at a place is one of the nodes of the statements. -/
theorem Holds.exists_mem_preorder (h : place.Holds text c cs) {m : Node} (hm : m ∈ c.preorder) :
    ∃ n ∈ cs, m ∈ n.preorder := by
  induction h with
  | here own later => exact ⟨_, List.mem_append_right _ (List.mem_cons_self ..), hm⟩
  | @inBlock _ b own later _ _ ih =>
    obtain ⟨n, hn, hm⟩ := ih
    exact ⟨b, List.mem_append_right _ (List.mem_cons_self ..), Node.mem_preorder_of_child hn hm⟩
  | @inBraces _ n body _ own later hn _ ih =>
    obtain ⟨d, hd, hm⟩ := ih
    exact ⟨n, List.mem_append_right _ (List.mem_cons_self ..), Node.mem_preorder_of_child
      (Node.mem_of_childInField? (body_of_formOf hn)) (Node.mem_preorder_of_child hd hm)⟩

/-- The scope at a place and what is found before it depend on the texts of the nodes. -/
theorem Holds.congr (h : place.Holds text c cs) {text' : Node → String}
    (hagree : ∀ n ∈ cs, ∀ m ∈ n.preorder, text' m = text m) (before : List Node) (s : NameScope) :
    place.scopeFrom text' s = place.scopeFrom text s
      ∧ place.foundBefore text' before s = place.foundBefore text before s := by
  -- the statements before the place in the outermost list, and the one that it is in
  have outer {own later : List Node} {b : Node}
      (hagree : ∀ n ∈ own ++ b :: later, ∀ m ∈ n.preorder, text' m = text m) :
      (∀ s, own.foldl (scopeAfter text') s = own.foldl (scopeAfter text) s)
        ∧ (∀ before s, ClassLike.found text' before own s = ClassLike.found text before own s)
        ∧ ∀ m ∈ b.preorder, text' m = text m := by
    have hown : ∀ n ∈ own, ∀ m ∈ n.preorder, text' m = text m := fun n hn =>
      hagree n (List.mem_append_left _ hn)
    exact ⟨foldl_scopeAfter_congr hown, fun before s => congrArg Prod.fst (walk_congr hown s),
      hagree b (List.mem_append_right _ (List.mem_cons_self ..))⟩
  induction h generalizing before s with
  | here own later =>
    obtain ⟨hafter, hfound, _⟩ := outer hagree
    exact ⟨hafter s, hfound before s⟩
  | inBlock own later _ _ ih =>
    obtain ⟨hafter, hfound, hb⟩ := outer hagree
    obtain ⟨hscope, hbefore⟩ :=
      ih (fun d hd m hm => hb m (Node.mem_preorder_of_child hd hm)) []
        (own.foldl (scopeAfter text) s)
    rw [scopeFrom, foundBefore, hafter, hfound, hscope, hbefore]
    exact ⟨rfl, rfl⟩
  | inBraces own later hn _ ih =>
    obtain ⟨_, hfound, hb⟩ := outer hagree
    have hbody := Node.mem_of_childInField? (body_of_formOf hn)
    obtain ⟨hscope, hbefore⟩ := ih (fun d hd m hm =>
      hb m (Node.mem_preorder_of_child hbody (Node.mem_preorder_of_child hd hm))) [] ⟨_, []⟩
    rw [scopeFrom, foundBefore, hfound, hscope, hbefore]
    exact ⟨rfl, rfl⟩

end

/-- A class-like that is found stands at a place, and has the scope there. -/
theorem exists_of_mem_found {text : Node → String} {before cs : List Node} {s : NameScope}
    {e : ClassLike} (h : e ∈ found text before cs s) :
    ∃ (place : StatementPlace) (kind : ClassKind) (n : Node), place.Holds text e.node cs
      ∧ formOf text e.node = .classLike kind (some n)
      ∧ e = ⟨⟨e.node, place.siblings before⟩, kind, text n, place.scopeFrom text s⟩ := by
  match cs with
  | [] =>
    rw [found_nil] at h
    cases h
  | c :: rest =>
    rw [found_cons] at h
    rcases List.mem_append.mp h with h | h
    · unfold foundIn at h
      split at h
      next name body hform =>
        have := size_body_lt hform
        obtain ⟨place, kind, n, hholds, hkind, he⟩ := exists_of_mem_found h
        exact ⟨.inBraces [] name place, kind, n, .inBraces [] rest hform hholds, hkind, he⟩
      next kind name hform =>
        obtain ⟨n, rfl, rfl⟩ := by simpa using h
        exact ⟨.here [], kind, n, .here [] rest, hform, rfl⟩
      next hform =>
        obtain ⟨place, kind, n, hholds, hkind, he⟩ := exists_of_mem_found h
        exact ⟨.inBlock [] place, kind, n, .inBlock [] rest hform hholds, hkind, he⟩
      next => cases h
    · obtain ⟨place, kind, n, hholds, hkind, he⟩ := exists_of_mem_found h
      refine ⟨place.after c, kind, n, hholds.after c, hkind, ?_⟩
      rw [siblings_after, scopeFrom_after]
      exact he
termination_by Node.sizes cs
decreasing_by
  all_goals simp only [Node.sizes]
  · omega
  · have := Node.size_eq c
    omega
  · have := Node.size_pos c
    omega

/-! ## Imports in namespaces -/

/-- In some statements all imports stand in the list of the file or of a namespace, given
whether the statements are those of a bare block. -/
def ImportsInNamespaces (text : Node → String) (inBlock : Bool) (cs : List Node) : Prop :=
  ∀ (place : StatementPlace) (u : Node), place.Holds text u cs → formOf text u = .imports →
    place.isInNamespace text inBlock = true

section

variable {text : Node → String} {inBlock : Bool} {before after : List Node} {b n body : Node}
  {name : String}

theorem ImportsInNamespaces.block (h : ImportsInNamespaces text inBlock (before ++ b :: after))
    (hb : formOf text b = .block) : ImportsInNamespaces text true b.children :=
  fun place u hu himports => h (.inBlock before place) u (.inBlock before after hb hu) himports

theorem ImportsInNamespaces.braces (h : ImportsInNamespaces text inBlock (before ++ n :: after))
    (hn : formOf text n = .braces name body) : ImportsInNamespaces text false body.children :=
  fun place u hu himports =>
    h (.inBraces before name place) u (.inBraces before after hn hu) himports

theorem ImportsInNamespaces.rest {c : Node} {cs : List Node}
    (h : ImportsInNamespaces text inBlock (c :: cs)) :
    ImportsInNamespaces text (inBlock && (regionName? text c).isNone) cs := by
  intro place u hu himports
  rw [← isInNamespace_after]
  exact h (place.after c) u (hu.after c) himports

/-- A bare block whose imports are those of namespaces in it leaves the imports around it
alone. -/
theorem walk_imports_eq {bs cs : List Node} (h : ImportsInNamespaces text true cs)
    (s : NameScope) : (walk text bs cs s).2 = s.imports := by
  match cs, h with
  | [], _ => rw [walk]
  | c :: rest, h =>
    have hrest (hregion : regionName? text c = none) (t : NameScope) :
        (walk text (c :: bs) rest t).2 = t.imports := by
      have hlater := h.rest
      rw [hregion] at hlater
      exact walk_imports_eq hlater t
    rw [walk_imports_cons]
    unfold scopeAfter
    cases hform : formOf text c with
    | region name => rfl
    | imports => cases h (.here []) c (.here [] rest) hform
    | block =>
      have := Node.size_eq c
      have hblock : ImportsInNamespaces text true ([] ++ c :: rest) := h
      simp only
      rw [hrest (by unfold regionName?; rw [hform])]
      exact walk_imports_eq (hblock.block hform) s
    | braces name body => exact hrest (by unfold regionName?; rw [hform]) s
    | classLike kind name => exact hrest (by unfold regionName?; rw [hform]) s
    | other => exact hrest (by unfold regionName?; rw [hform]) s
termination_by Node.sizes cs
decreasing_by
  all_goals simp only [Node.sizes]
  · have := Node.size_pos c
    omega
  · omega

theorem scopeAfter_block (h : ImportsInNamespaces text inBlock (before ++ b :: after))
    (hb : formOf text b = .block) (s : NameScope) : scopeAfter text s b = s := by
  unfold scopeAfter
  rw [hb]
  simp only
  rw [walk_imports_eq (h.block hb)]

end

/-! ## Scopes of regions -/

section

variable (text : Node → String)

/-- The name of the latest namespace without braces among some statements. -/
def latest? (cs : List Node) : Option String := cs.reverse.findSome? (regionName? text)

/-- The declarations of imports since the latest namespace without braces. -/
def importsSince (cs : List Node) : List Node :=
  (cs.reverse.takeWhile fun n => (regionName? text n).isNone).reverse.filter (isImports text)

/-- The namespace at a place: that of the latest namespace without braces in its region, or
else of the braces around it. -/
def namespaceName (place : StatementPlace) : String :=
  let (around, earlier) := place.region "" []
  (latest? text earlier).getD around

/-- The declarations of imports that are in effect at a place. -/
def uses (place : StatementPlace) : List Node := importsSince text (place.region "" []).2

end

section

variable {text : Node → String} {c : Node} {place : StatementPlace} {cs : List Node}

/-- The scope that statements leave whose blocks leave it alone, the nearest statement first. -/
theorem foldr_scopeAfter {rs : List Node}
    (hblocks : ∀ b ∈ rs, formOf text b = .block → ∀ s, scopeAfter text s b = s) (around : String) :
    rs.foldr (fun c s => scopeAfter text s c) ⟨around, []⟩
      = ⟨(rs.findSome? (regionName? text)).getD around,
        ((rs.takeWhile fun n => (regionName? text n).isNone).filter (isImports text)).foldr
          (Imports.addDeclaration text) []⟩ := by
  induction rs with
  | nil => rfl
  | cons n rs ih =>
    have hrest := ih fun b hb => hblocks b (List.mem_cons_of_mem _ hb)
    have hn := hblocks n (List.mem_cons_self ..)
    rw [List.foldr_cons, hrest]
    -- a statement that is no import and begins no region
    have still (hregion : regionName? text n = none) (himports : isImports text n = false)
        (hafter : ∀ s, scopeAfter text s n = s) :
        scopeAfter text ⟨(rs.findSome? (regionName? text)).getD around,
            ((rs.takeWhile fun n => (regionName? text n).isNone).filter (isImports text)).foldr
              (Imports.addDeclaration text) []⟩ n
          = ⟨((n :: rs).findSome? (regionName? text)).getD around,
            (((n :: rs).takeWhile fun n => (regionName? text n).isNone).filter
              (isImports text)).foldr (Imports.addDeclaration text) []⟩ := by
      rw [hafter, List.findSome?_cons, hregion, List.takeWhile_cons_of_pos (by rw [hregion]; rfl),
        List.filter_cons_of_neg (by rw [himports]; exact Bool.false_ne_true)]
    cases hform : formOf text n with
    | region name =>
      have hregion : regionName? text n = some name := by unfold regionName?; rw [hform]
      unfold scopeAfter
      rw [hform, List.findSome?_cons, hregion,
        List.takeWhile_cons_of_neg (by rw [hregion]; exact Bool.false_ne_true)]
      rfl
    | imports =>
      have hregion : regionName? text n = none := by unfold regionName?; rw [hform]
      have himports : isImports text n = true := by unfold isImports; rw [hform]
      unfold scopeAfter
      rw [hform, List.findSome?_cons, hregion, List.takeWhile_cons_of_pos (by rw [hregion]; rfl),
        List.filter_cons_of_pos himports, List.foldr_cons]
    | block =>
      exact still (by unfold regionName?; rw [hform]) (by unfold isImports; rw [hform]) (hn hform)
    | braces name body =>
      exact still (by unfold regionName?; rw [hform]) (by unfold isImports; rw [hform])
        fun s => by unfold scopeAfter; rw [hform]
    | classLike kind name =>
      exact still (by unfold regionName?; rw [hform]) (by unfold isImports; rw [hform])
        fun s => by unfold scopeAfter; rw [hform]
    | other =>
      exact still (by unfold regionName?; rw [hform]) (by unfold isImports; rw [hform])
        fun s => by unfold scopeAfter; rw [hform]

theorem foldl_scopeAfter (hblocks : ∀ b ∈ cs, formOf text b = .block → ∀ s, scopeAfter text s b = s)
    (around : String) :
    cs.foldl (scopeAfter text) ⟨around, []⟩ = ⟨(latest? text cs).getD around,
      (importsSince text cs).foldl (fun acc u => Imports.addDeclaration text u acc) []⟩ := by
  have hreverse : ∀ b ∈ cs.reverse, formOf text b = .block → ∀ s, scopeAfter text s b = s :=
    fun b hb => hblocks b (List.mem_reverse.mp hb)
  have h := foldr_scopeAfter hreverse around
  rw [List.foldr_reverse] at h
  unfold latest? importsSince
  rw [List.filter_reverse, List.foldl_reverse]
  exact h

/-- The scope at a place is that which the statements of its region leave. -/
theorem scopeFrom_region (place : StatementPlace) (around : String) (earlier : List Node) :
    place.scopeFrom text (earlier.foldl (scopeAfter text) ⟨around, []⟩)
      = (place.region around earlier).2.foldl (scopeAfter text)
        ⟨(place.region around earlier).1, []⟩ := by
  induction place generalizing around earlier with
  | here before => exact (List.foldl_append ..).symm
  | inBlock before inner ih =>
    rw [scopeFrom, region, ← ih, List.foldl_append]
  | inBraces before name inner ih => exact ih name []

/-- The blocks in the region of a place leave scopes alone. -/
theorem Holds.blocks_still (h : place.Holds text c cs) {inBlock : Bool}
    (hlevel : ImportsInNamespaces text inBlock cs) {around : String} {earlier : List Node}
    (hearlier : ∀ b ∈ earlier, formOf text b = .block → ∀ s, scopeAfter text s b = s) :
    ∀ b ∈ (place.region around earlier).2, formOf text b = .block →
      ∀ s, scopeAfter text s b = s := by
  -- the statements before the place in one list, and those before that list
  have more {own later : List Node} {b' : Node} {inBlock : Bool} {earlier : List Node}
      (hlevel : ImportsInNamespaces text inBlock (own ++ b' :: later))
      (hearlier : ∀ b ∈ earlier, formOf text b = .block → ∀ s, scopeAfter text s b = s) :
      ∀ b ∈ earlier ++ own, formOf text b = .block → ∀ s, scopeAfter text s b = s := by
    intro b hb hform
    rcases List.mem_append.mp hb with hb | hb
    · exact hearlier b hb hform
    · obtain ⟨first, rest, rfl⟩ := List.append_of_mem hb
      rw [List.append_assoc, List.cons_append] at hlevel
      exact scopeAfter_block hlevel hform
  induction h generalizing inBlock around earlier with
  | here own later => exact more hlevel hearlier
  | inBlock own later hb _ ih => exact ih (hlevel.block hb) (more hlevel hearlier)
  | inBraces own later hn _ ih => exact ih (hlevel.braces hn) fun b hb => by cases hb

end

end StatementPlace

/-! ## Imports by alias -/

namespace Imports

/-- A change of imports that sets the paths of some aliases, whatever they were. -/
def Overrides (f : Imports → Imports) : Prop :=
  ∀ (imports : Imports) (short : String),
    (f imports).lookup short = ((f []).lookup short).or (imports.lookup short)

theorem overrides_id : Overrides id := fun _ _ => rfl

theorem Overrides.comp {f g : Imports → Imports} (hg : Overrides g) (hf : Overrides f) :
    Overrides (g ∘ f) := fun imports short => by
  show (g (f imports)).lookup short = ((g (f [])).lookup short).or _
  rw [hg (f imports), hg (f []), hf imports, Option.or_assoc]

theorem overrides_add (added path : String) : Overrides (add added path) := fun imports short => by
  have hnil : (add added path []).lookup short = if short = added then some path else none := by
    rw [add, List.lookup_cons]
    by_cases h : short = added
    · rw [if_pos h, h, beq_self_eq_true]
    · rw [if_neg h, beq_false_of_ne h]
      rfl
  rw [hnil]
  induction imports with
  | nil =>
    rw [hnil]
    exact (Option.or_none).symm
  | cons entry rest ih =>
    obtain ⟨a, p⟩ := entry
    rw [add]
    by_cases ha : a = added
    · subst ha
      rw [if_pos (beq_self_eq_true a), List.lookup_cons, List.lookup_cons]
      by_cases h : short = a
      · rw [h, beq_self_eq_true, if_pos rfl]
        rfl
      · rw [beq_false_of_ne h, if_neg h]
        rfl
    · rw [if_neg (by simpa using ha), List.lookup_cons, List.lookup_cons, ih]
      by_cases h : short = a
      · rw [h, beq_self_eq_true, if_neg ha]
        rfl
      · rw [beq_false_of_ne h]

variable (text : Node → String)

theorem overrides_addClause (shared : String) (clause : Node) :
    Overrides (addClause text shared clause) := by
  unfold addClause
  cases pathNode? clause with
  | none => exact overrides_id
  | some path => exact overrides_add _ _

theorem overrides_addParts (shared : String) (parts : List Node) :
    Overrides (addParts text shared parts) := by
  induction parts generalizing shared with
  | nil => exact overrides_id
  | cons n rest ih =>
    have hgroup (members : List Node) : Overrides fun imports =>
        members.foldl (fun acc c => addClause text shared c acc) imports := by
      induction members with
      | nil => exact overrides_id
      | cons c members ih => exact ih.comp (overrides_addClause text shared c)
    by_cases hpath : pathKinds.contains n.kind = true
    · have hstep : addParts text shared (n :: rest)
          = addParts text (Identifier.dropLeading (text n)) rest := by
        funext imports
        rw [addParts, if_pos hpath]
      exact hstep ▸ ih _
    by_cases hclause : (n.kind == "namespace_use_clause") = true
    · have hstep : addParts text shared (n :: rest)
          = addParts text shared rest ∘ addClause text "" n := by
        funext imports
        rw [addParts, if_neg hpath, if_pos hclause]
        rfl
      exact hstep ▸ (ih shared).comp (overrides_addClause text "" n)
    by_cases hmembers : (n.kind == "namespace_use_group") = true
    · have hstep : addParts text shared (n :: rest) = addParts text shared rest ∘ fun imports =>
          (n.children.filter fun c => memberKinds.contains c.kind).foldl
            (fun acc c => addClause text shared c acc) imports := by
        funext imports
        rw [addParts, if_neg hpath, if_neg hclause, if_pos hmembers]
        rfl
      exact hstep ▸ (ih shared).comp (hgroup _)
    · have hstep : addParts text shared (n :: rest) = addParts text shared rest := by
        funext imports
        rw [addParts, if_neg hpath, if_neg hclause, if_neg hmembers]
      exact hstep ▸ ih shared

theorem overrides_addDeclaration (n : Node) : Overrides (addDeclaration text n) := by
  unfold addDeclaration
  split
  · exact overrides_id
  · exact overrides_addParts text "" n.children

/-- Of the declarations of imports the last one that has an alias counts for it. -/
theorem lookup_declarations (us : List Node) (short : String) :
    (us.foldl (fun acc u => addDeclaration text u acc) []).lookup short
      = us.reverse.findSome? fun u => (addDeclaration text u []).lookup short := by
  rw [← List.foldr_reverse]
  induction us.reverse with
  | nil => rfl
  | cons u rest ih =>
    rw [List.foldr_cons, overrides_addDeclaration, ih, List.findSome?_cons]
    cases (addDeclaration text u []).lookup short <;> rfl

end Imports

/-! ## The scopes of class-likes -/

/-- The scope at a place: its namespace, and the imports that the declarations before it in
its region make, by name the last one of each alias. -/
structure StatementPlace.Gives (text : Node → String) (place : StatementPlace) (s : NameScope) :
    Prop where
  namespaceName : s.namespaceName = place.namespaceName text
  imports : s.imports
    = (place.uses text).foldl (fun acc u => Imports.addDeclaration text u acc) []
  lookup : ∀ short, s.imports.lookup short
    = (place.uses text).reverse.findSome? fun u => (Imports.addDeclaration text u []).lookup short

/-- If all imports stand in namespaces, the region of a place gives its scope. -/
theorem StatementPlace.Holds.gives {text : Node → String} {c : Node} {place : StatementPlace}
    {cs : List Node} (h : place.Holds text c cs)
    (hlevel : StatementPlace.ImportsInNamespaces text false cs) :
    place.Gives text (place.scopeFrom text NameScope.empty) := by
  have hregion : place.scopeFrom text NameScope.empty
      = (place.region "" []).2.foldl (ClassLike.scopeAfter text) ⟨(place.region "" []).1, []⟩ :=
    StatementPlace.scopeFrom_region place "" []
  have hstill : ∀ b ∈ (place.region "" []).2, ClassLike.formOf text b = .block →
      ∀ s, ClassLike.scopeAfter text s b = s := h.blocks_still hlevel fun b hb => by cases hb
  have hscope : place.scopeFrom text NameScope.empty = ⟨place.namespaceName text,
      (place.uses text).foldl (fun acc u => Imports.addDeclaration text u acc) []⟩ :=
    hregion.trans (StatementPlace.foldl_scopeAfter hstill _)
  rw [hscope]
  exact ⟨rfl, rfl, Imports.lookup_declarations text _⟩

/-- At one place of two lists of statements, whose nodes have the same texts as far as they
are in the first, the same class-like is found, after the same others. -/
theorem StatementPlace.Holds.found_again {text text' : Node → String} {c n : Node}
    {kind : ClassKind} {place : StatementPlace} {cs ds : List Node} (h : place.Holds text c cs)
    (hform : ClassLike.formOf text c = .classLike kind (some n))
    (hagree : ∀ d ∈ cs, ∀ m ∈ d.preorder, text' m = text m) (h' : place.Holds text' c ds) :
    ∃ rest, ClassLike.found text' [] ds NameScope.empty
      = place.foundBefore text [] NameScope.empty ++ ⟨⟨c, place.siblings []⟩, kind, text n,
        place.scopeFrom text NameScope.empty⟩ :: rest := by
  have hc : ∀ m ∈ c.preorder, text' m = text m := fun m hm => by
    obtain ⟨d, hd, hm⟩ := h.exists_mem_preorder hm
    exact hagree d hd m hm
  have hn : text' n = text n := hc n (Node.mem_preorder_of_child
    (Node.mem_of_childInField? (ClassLike.name_of_formOf hform)) (Node.mem_preorder_self n))
  have hform' := (ClassLike.formOf_congr hc).trans hform
  obtain ⟨hscope, hbefore⟩ := h.congr hagree [] NameScope.empty
  obtain ⟨rest, hall⟩ := h'.found hform' [] NameScope.empty
  rw [hscope, hbefore, hn] at hall
  exact ⟨rest, hall⟩

/-- Every class-like that is found stands at a place and has the scope that its region
gives. At each place of a class-like with a name one is found, and it and those before it are
the same in every tree that has it at that place. -/
theorem ClassLike.all_scoped (p : ParsedSource)
    (hlevel : StatementPlace.ImportsInNamespaces p.text false p.root.children) :
    (∀ e ∈ all p, ∃ place : StatementPlace, place.Holds p.text e.node p.root.children
        ∧ e.site.before = place.siblings [] ∧ place.Gives p.text e.scope)
      ∧ ∀ (place : StatementPlace) (c : Node) (kind : ClassKind) (n : Node),
        place.Holds p.text c p.root.children → formOf p.text c = .classLike kind (some n) →
          ∃ (first : List ClassLike) (e : ClassLike), e.node = c ∧ place.Gives p.text e.scope
            ∧ ∀ q : ParsedSource, (∀ m ∈ p.root.preorder, q.text m = p.text m) →
              place.Holds q.text c q.root.children → ∃ rest, all q = first ++ e :: rest := by
  constructor
  · intro e he
    have hfound : e ∈ found p.text [] p.root.children NameScope.empty := he
    obtain ⟨place, kind, n, hholds, _, heq⟩ := StatementPlace.exists_of_mem_found hfound
    refine ⟨place, hholds, congrArg (·.site.before) heq, ?_⟩
    have hscope : e.scope = place.scopeFrom p.text NameScope.empty := congrArg (·.scope) heq
    exact hscope ▸ hholds.gives hlevel
  · intro place c kind n hholds hform
    have hagree (q : ParsedSource) (hq : ∀ m ∈ p.root.preorder, q.text m = p.text m) :
        ∀ d ∈ p.root.children, ∀ m ∈ d.preorder, q.text m = p.text m :=
      fun d hd m hm => hq m (Node.mem_preorder_of_child hd hm)
    exact ⟨place.foundBefore p.text [] NameScope.empty, ⟨⟨c, place.siblings []⟩, kind, p.text n,
      place.scopeFrom p.text NameScope.empty⟩, rfl, hholds.gives hlevel,
      fun q hq hplace => hholds.found_again hform (hagree q hq) hplace⟩

/-! ## A namespace in the braces of another -/

namespace StatementPlace

open ClassLike

variable {text : Node → String} {inBlock : Bool} {c : Node} {rest : List Node}

theorem ImportsInNamespaces.nil : ImportsInNamespaces text inBlock [] := fun _ _ h =>
  absurd h not_holds_nil

/-- Imports stand in namespaces if they do in the first statement and after it. -/
theorem ImportsInNamespaces.cons {f : StatementForm} (hf : formOf text c = f)
    (hc : match f with
      | .imports => inBlock = false
      | .block => ImportsInNamespaces text true c.children
      | .braces _ body => ImportsInNamespaces text false body.children
      | _ => True)
    (hrest : ImportsInNamespaces text (inBlock && (regionName? text c).isNone) rest) :
    ImportsInNamespaces text inBlock (c :: rest) := by
  intro place u hu himports
  rcases hu.of_cons with ⟨rfl, rfl⟩ | ⟨inner, rfl, hform, h⟩ | ⟨name, body, inner, rfl, hform, h⟩
    | ⟨later, rfl, h⟩
  · rw [himports] at hf
    subst hf
    have hfile : inBlock = false := hc
    rw [hfile]
    rfl
  · rw [hform] at hf
    subst hf
    exact hc inner u h himports
  · rw [hform] at hf
    subst hf
    exact hc inner u h himports
  · rw [isInNamespace_after]
    exact hrest later u h himports

end StatementPlace

/-- A text with a namespace without braces in one with braces. -/
def nestedText : String :=
  "<?php namespace A \x7b namespace B; use X\\Y; class T \x7b\x7d \x7d"

/-- The start of the text. -/
def nestedTag : Node := ⟨"php_tag", 0, 5, none, true, false, []⟩

/-- The brace that opens the outer namespace. -/
def nestedBrace : Node := ⟨"\x7b", 18, 19, none, false, false, []⟩

/-- The namespace within the other. -/
def nestedRegion : Node :=
  ⟨"namespace_definition", 20, 32, none, true, false,
    [⟨"namespace", 20, 29, none, false, false, []⟩,
      ⟨"namespace_name", 30, 31, some "name", true, false,
        [⟨"name", 30, 31, none, true, false, []⟩]⟩,
      ⟨";", 31, 32, none, false, false, []⟩]⟩

/-- The import after it. -/
def nestedUse : Node :=
  ⟨"namespace_use_declaration", 33, 41, none, true, false,
    [⟨"use", 33, 36, none, false, false, []⟩,
      ⟨"namespace_use_clause", 37, 40, none, true, false,
        [⟨"qualified_name", 37, 40, none, true, false,
          [⟨"namespace_name", 37, 38, some "prefix", true, false,
              [⟨"name", 37, 38, none, true, false, []⟩]⟩,
            ⟨"\\", 38, 39, some "prefix", false, false, []⟩,
            ⟨"name", 39, 40, none, true, false, []⟩]⟩]⟩,
      ⟨";", 40, 41, none, false, false, []⟩]⟩

/-- The name of the class after both. -/
def nestedName : Node := ⟨"name", 48, 49, some "name", true, false, []⟩

/-- The class after both. -/
def nestedClass : Node :=
  ⟨"class_declaration", 42, 52, none, true, false,
    [⟨"class", 42, 47, none, false, false, []⟩, nestedName,
      ⟨"declaration_list", 50, 52, some "body", true, false,
        [⟨"\x7b", 50, 51, none, false, false, []⟩, ⟨"\x7d", 51, 52, none, false, false, []⟩]⟩]⟩

/-- The statements of the outer namespace. -/
def nestedBody : Node :=
  ⟨"compound_statement", 18, 54, some "body", true, false,
    [nestedBrace, nestedRegion, nestedUse, nestedClass,
      ⟨"\x7d", 53, 54, none, false, false, []⟩]⟩

/-- The outer namespace. -/
def nestedBraces : Node :=
  ⟨"namespace_definition", 6, 54, none, true, false,
    [⟨"namespace", 6, 15, none, false, false, []⟩,
      ⟨"namespace_name", 16, 17, some "name", true, false,
        [⟨"name", 16, 17, none, true, false, []⟩]⟩, nestedBody]⟩

/-- The text with its syntax tree. -/
def nestedSource : ParsedSource :=
  ⟨Source.ofString nestedText, "<string>", ⟨"program", 0, 54, none, true, false,
    [nestedTag, nestedBraces]⟩⟩

/-- The place of the class. -/
def nestedPlace : StatementPlace :=
  .inBraces [nestedTag] "A" (.here [nestedBrace, nestedRegion, nestedUse])

theorem holds_nestedPlace :
    nestedPlace.Holds nestedSource.text nestedClass nestedSource.root.children := by
  have hform : ClassLike.formOf nestedSource.text nestedBraces = .braces "A" nestedBody := by rfl
  exact .inBraces [nestedTag] [] hform (.here [nestedBrace, nestedRegion, nestedUse] _)

theorem importsInNamespaces_nestedSource :
    StatementPlace.ImportsInNamespaces nestedSource.text false nestedSource.root.children := by
  have hbody : StatementPlace.ImportsInNamespaces nestedSource.text false nestedBody.children :=
    .cons (f := .other) (by rfl) trivial <| .cons (f := .region "B") (by rfl) trivial <|
      .cons (f := .imports) (by rfl) rfl <|
        .cons (f := .classLike .classKind (some nestedName)) (by rfl) trivial <|
          .cons (f := .other) (by rfl) trivial .nil
  exact .cons (f := .other) (by rfl) trivial
    (.cons (f := .braces "A" nestedBody) (by rfl) hbody .nil)

/-- A class in the braces of one namespace has the name of another, which has none. -/
theorem ClassLike.namespace_nested :
    StatementPlace.ImportsInNamespaces nestedSource.text false nestedSource.root.children
      ∧ nestedPlace.Holds nestedSource.text nestedClass nestedSource.root.children
      ∧ (nestedPlace.region "" []).1 = "A"
      ∧ ∃ e ∈ all nestedSource, e.node = nestedClass ∧ e.scope.namespaceName = "B" := by
  have hform : formOf nestedSource.text nestedClass = .classLike .classKind (some nestedName) := by
    rfl
  obtain ⟨rest, hall⟩ := holds_nestedPlace.found hform [] NameScope.empty
  refine ⟨importsInNamespaces_nestedSource, holds_nestedPlace, rfl,
    ⟨⟨nestedClass, nestedPlace.siblings []⟩, .classKind, nestedSource.text nestedName,
      nestedPlace.scopeFrom nestedSource.text NameScope.empty⟩, ?_, rfl, by rfl⟩
  show _ ∈ found nestedSource.text [] nestedSource.root.children NameScope.empty
  rw [hall]
  exact List.mem_append_right _ (List.mem_cons_self ..)

/-- The class in the inner namespace has the import that stands before it there. -/
theorem ClassLike.all_scoped_nested :
    StatementPlace.ImportsInNamespaces nestedSource.text false nestedSource.root.children
      ∧ ∃ e ∈ all nestedSource, e.node = nestedClass ∧ e.scope.namespaceName = "B"
        ∧ e.scope.imports = [("y", "X\\Y")] := by
  obtain ⟨first, e, hnode, hgives, hall⟩ :=
    (all_scoped nestedSource importsInNamespaces_nestedSource).2 nestedPlace nestedClass .classKind
      nestedName holds_nestedPlace (by rfl)
  obtain ⟨rest, hrest⟩ := hall nestedSource (fun _ _ => rfl) holds_nestedPlace
  refine ⟨importsInNamespaces_nestedSource, e, ?_, hnode, hgives.namespaceName.trans (by rfl),
    hgives.imports.trans (by rfl)⟩
  rw [hrest]
  exact List.mem_append_right _ (List.mem_cons_self ..)

end StaticReflection
