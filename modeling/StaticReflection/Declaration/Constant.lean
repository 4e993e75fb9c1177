import StaticReflection.Syntax.Source

/-!
# Declarations of class constants

A constant and the expression that it stands for. In a class body that declares
a name more than once the last declaration counts, in the place of the first.
-/

namespace StaticReflection

/-- A declared class constant. -/
structure ConstantDeclaration where
  name : String
  value : Node

namespace ConstantDeclaration

/-- The constant that an element of a statement declares, if it has a name and a value. -/
def ofElement? (p : ParsedSource) (n : Node) : Option ConstantDeclaration :=
  match n.namedChildren with
  | called :: value :: rest => some ⟨p.text called, ((value :: rest).getLast?).getD value⟩
  | _ => none

/-- The constants that a class body declares, in source order. -/
def ofBody (p : ParsedSource) (body : Node) : List ConstantDeclaration :=
  (body.children.filter (·.kind == "const_declaration")).flatMap fun statement =>
    (statement.children.filter (·.kind == "const_element")).filterMap (ofElement? p)

/-- Constants by name, with one more: it takes the place of one with its name. -/
def put (d : ConstantDeclaration) : List ConstantDeclaration → List ConstantDeclaration
  | [] => [d]
  | e :: rest => if e.name == d.name then d :: rest else e :: put d rest

/-- The constants of a class body, one of each name. -/
def distinct (ds : List ConstantDeclaration) : List ConstantDeclaration :=
  ds.foldl (fun acc d => put d acc) []

end ConstantDeclaration

end StaticReflection
