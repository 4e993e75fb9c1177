/-!
# Syntax trees

A node of a concrete syntax tree has a kind, the byte range of the source it
covers, and its children in order. Punctuation and keywords are nodes too, but
not *named* ones. A child may carry the name of a field of its parent.

Folding and the search for declarations recurse into children, named children
and the children of those; `size_lt_of_mem` and its companions are why they end.
-/

namespace StaticReflection

/-- A node of a syntax tree. -/
structure Node where
  kind : String
  start : Nat
  stop : Nat
  field : Option String
  isNamed : Bool
  isMissing : Bool
  children : List Node

instance : Inhabited Node := ⟨⟨"", 0, 0, none, true, false, []⟩⟩

namespace Node

/-- The children that are named. -/
def namedChildren (n : Node) : List Node := n.children.filter (·.isNamed)

/-- The first child in a field. -/
def childInField? (n : Node) (field : String) : Option Node :=
  n.children.find? fun c => c.field == some field

/-- The first child of a kind. -/
def childOfKind? (n : Node) (kind : String) : Option Node :=
  n.children.find? fun c => c.kind == kind

mutual

/-- The number of nodes of a tree. -/
def size : Node → Nat
  | ⟨_, _, _, _, _, _, children⟩ => sizes children + 1

/-- The number of nodes of some trees. -/
def sizes : List Node → Nat
  | [] => 0
  | n :: rest => size n + sizes rest

end

theorem size_eq (n : Node) : n.size = sizes n.children + 1 := by
  cases n; simp [size]

theorem size_pos (n : Node) : 0 < n.size := by rw [size_eq]; exact Nat.succ_pos _

theorem size_le_sizes {c : Node} {cs : List Node} (h : c ∈ cs) : c.size ≤ sizes cs := by
  induction cs with
  | nil => cases h
  | cons d ds ih =>
    simp only [sizes]
    rcases List.mem_cons.mp h with rfl | h
    · omega
    · have := ih h; omega

/-- A child is smaller than its parent. -/
theorem size_lt_of_mem {c n : Node} (h : c ∈ n.children) : c.size < n.size := by
  have := size_le_sizes h
  rw [size_eq n]; omega

theorem sizes_filter_le (p : Node → Bool) (cs : List Node) : sizes (cs.filter p) ≤ sizes cs := by
  induction cs with
  | nil => simp
  | cons c cs ih =>
    rw [List.filter_cons]
    split <;> simp only [sizes] <;> omega

theorem mem_children_of_named {c n : Node} (h : c ∈ n.namedChildren) : c ∈ n.children :=
  (List.mem_filter.mp h).1

theorem mem_of_childInField? {c n : Node} {field : String} (h : n.childInField? field = some c) :
    c ∈ n.children := List.mem_of_find?_eq_some h

theorem sizes_named_lt (n : Node) : sizes n.namedChildren < n.size := by
  have := sizes_filter_le (·.isNamed) n.children
  rw [size_eq]; unfold namedChildren; omega

mutual

/-- The nodes of a tree, each before its children. -/
def preorder : Node → List Node
  | ⟨kind, start, stop, field, isNamed, isMissing, children⟩ =>
    ⟨kind, start, stop, field, isNamed, isMissing, children⟩ :: preorders children

/-- The nodes of some trees in order. -/
def preorders : List Node → List Node
  | [] => []
  | n :: rest => preorder n ++ preorders rest

end

theorem preorder_eq (n : Node) : n.preorder = n :: preorders n.children := by
  cases n
  rw [preorder]

theorem mem_preorder_self (n : Node) : n ∈ n.preorder := by
  rw [preorder_eq]
  exact List.mem_cons_self ..

/-- The nodes of a child are nodes of its parent. -/
theorem mem_preorder_of_child {m c n : Node} (hc : c ∈ n.children) (hm : m ∈ c.preorder) :
    m ∈ n.preorder := by
  have hmem {cs : List Node} (hc : c ∈ cs) : m ∈ preorders cs := by
    induction cs with
    | nil => cases hc
    | cons d ds ih =>
      rw [preorders]
      rcases List.mem_cons.mp hc with rfl | hc
      · exact List.mem_append_left _ hm
      · exact List.mem_append_right _ (ih hc)
  rw [preorder_eq]
  exact List.mem_cons_of_mem _ (hmem hc)

/-- Whether a node marks a place where the source breaks the grammar. -/
def isError (n : Node) : Bool := n.kind == "ERROR" || n.isMissing

/-- Whether some node of the tree marks such a place. -/
def hasError (n : Node) : Bool := n.preorder.any isError

end Node

/-- A node and the siblings before it, the nearest first. -/
structure Sited where
  node : Node
  before : List Node

namespace Sited

/-- Nodes with the siblings before them, given those before the first. -/
def ofSiblings (before : List Node) : List Node → List Sited
  | [] => []
  | n :: rest => ⟨n, before⟩ :: ofSiblings (n :: before) rest

/-- The children of a node, each with the siblings before it. -/
def children (n : Node) : List Sited := ofSiblings [] n.children

mutual

/-- The nodes of a tree in preorder, each with the siblings before it. -/
def preorder (before : List Node) : Node → List Sited
  | ⟨kind, start, stop, field, isNamed, isMissing, children⟩ =>
    ⟨⟨kind, start, stop, field, isNamed, isMissing, children⟩, before⟩ :: preorders [] children

/-- The nodes of sibling trees in preorder, given the siblings before the first. -/
def preorders (before : List Node) : List Node → List Sited
  | [] => []
  | n :: rest => preorder before n ++ preorders (n :: before) rest

end

end Sited

end StaticReflection
