import StaticReflection.Declaration.NameScope
import StaticReflection.Syntax.Source

/-!
# Class-likes

Classes, interfaces, traits and enums with the names they have in their file.
`ClassLike.all` finds those of a syntax tree in source order: at its top level,
in namespaces, and in bare blocks. A namespace without a block holds for what
follows it; an import holds for what follows it in its namespace, also when it
stands in a block.
-/

namespace StaticReflection

/-- The kinds of class-likes. -/
inductive ClassKind where
  | classKind
  | interfaceKind
  | traitKind
  | enumKind
  deriving DecidableEq, Repr

namespace ClassKind

/-- The keyword of a kind. -/
def name : ClassKind → String
  | .classKind => "class"
  | .interfaceKind => "interface"
  | .traitKind => "trait"
  | .enumKind => "enum"

/-- The kind that a type of syntax nodes declares. -/
def ofNodeKind? : String → Option ClassKind
  | "class_declaration" => some .classKind
  | "interface_declaration" => some .interfaceKind
  | "trait_declaration" => some .traitKind
  | "enum_declaration" => some .enumKind
  | _ => none

end ClassKind

/-- A class-like declaration and what its name depends on. -/
structure ClassLike where
  site : Sited
  kind : ClassKind
  shortName : String
  scope : NameScope

namespace ClassLike

/-- The full name of a class-like. -/
def name (c : ClassLike) : String := Identifier.qualify c.scope.namespaceName c.shortName

/-- The key under which a class-like is looked up. -/
def key (c : ClassLike) : String := Identifier.normalize c.name

/-- The node that declares a class-like. -/
def node (c : ClassLike) : Node := c.site.node

end ClassLike

namespace Imports

/-- Kinds of nodes that hold the path of an import, the preferred ones first. -/
def pathKinds : List String := ["qualified_name", "namespace_name", "name"]

/-- The node that holds the path of an import. -/
def pathNode? (clause : Node) : Option Node := pathKinds.findSome? clause.childOfKind?

/-- The node that holds the alias of an import. -/
def aliasNode? (clause : Node) : Option Node :=
  clause.childInField? "alias"
    <|> (clause.childOfKind? "namespace_aliasing_clause").bind (·.childOfKind? "name")

/-- The imports with that of a clause, whose path continues a shared one. -/
def addClause (text : Node → String) (shared : String) (clause : Node) (imports : Imports) :
    Imports :=
  match pathNode? clause with
  | none => imports
  | some pathNode =>
    let path := Identifier.qualify shared (Identifier.dropLeading (text pathNode))
    let given := match aliasNode? clause with
      | some n => text n
      | none => Identifier.lastSegment path
    imports.add (LetterCase.lower given) path

/-- Kinds of nodes that are members of a group of imports. -/
def memberKinds : List String := ["namespace_use_clause", "namespace_use_group_clause"]

/-- The imports with those that the parts of a declaration make, given the path
that its groups share so far. -/
def addParts (text : Node → String) : String → List Node → Imports → Imports
  | _, [], imports => imports
  | shared, n :: rest, imports =>
    if pathKinds.contains n.kind then
      addParts text (Identifier.dropLeading (text n)) rest imports
    else if n.kind == "namespace_use_clause" then
      addParts text shared rest (addClause text "" n imports)
    else if n.kind == "namespace_use_group" then
      addParts text shared rest <|
        (n.children.filter fun c => memberKinds.contains c.kind).foldl
          (fun acc c => addClause text shared c acc) imports
    else addParts text shared rest imports

/-- The imports with those of a declaration; one that imports functions or
constants imports no classes. -/
def addDeclaration (text : Node → String) (n : Node) (imports : Imports) : Imports :=
  if n.children.any fun c => c.kind == "function" || c.kind == "const" then imports
  else addParts text "" n.children imports

end Imports

namespace ClassLike

/-- The class-likes of sibling nodes, given the siblings before them and the scope
of the first; and the imports of that scope at their end. -/
def walk (text : Node → String) (before cs : List Node) (scope : NameScope) :
    List ClassLike × Imports :=
  match cs with
  | [] => ([], scope.imports)
  | c :: rest =>
    if c.kind = "namespace_definition" then
      let inner : NameScope := ⟨((c.childInField? "name").map text).getD "", []⟩
      match h : c.childInField? "body" with
      | some body =>
        have : Node.sizes body.children < Node.sizes (c :: rest) := by
          have h1 := Node.size_lt_of_mem (Node.mem_of_childInField? h)
          have h2 := Node.size_eq body
          simp only [Node.sizes]; omega
        let found := (walk text [] body.children inner).1
        let (more, imports) := walk text (c :: before) rest scope
        (found ++ more, imports)
      | none => ((walk text (c :: before) rest inner).1, scope.imports)
    else if c.kind = "namespace_use_declaration" then
      walk text (c :: before) rest
        { scope with imports := Imports.addDeclaration text c scope.imports }
    else
      match ClassKind.ofNodeKind? c.kind with
      | some kind =>
        let (more, imports) := walk text (c :: before) rest scope
        match c.childInField? "name" with
        | some n => (⟨⟨c, before⟩, kind, text n, scope⟩ :: more, imports)
        | none => (more, imports)
      | none =>
        if c.kind = "compound_statement" then
          let (found, imports) := walk text [] c.children scope
          let (more, imports) := walk text (c :: before) rest { scope with imports }
          (found ++ more, imports)
        else walk text (c :: before) rest scope
termination_by Node.sizes cs
decreasing_by
  all_goals simp only [Node.sizes] at *
  all_goals have := Node.size_eq c
  all_goals omega

/-- The class-likes of a file in source order. -/
def all (p : ParsedSource) : List ClassLike :=
  (walk p.text [] p.root.children NameScope.empty).1

end ClassLike

end StaticReflection
