import StaticReflection.Declaration.DocComment
import StaticReflection.Declaration.Modifier
import StaticReflection.Failure
import StaticReflection.Value.Convert

/-!
# Declarations of properties

What a property declaration says, taken from a syntax node or given by a caller.
One statement may declare several properties, which share its modifiers, type,
doc comment and extent. A constructor parameter with a visibility declares a
property too; its default belongs to the parameter, so the property has none.
-/

namespace StaticReflection

/-- Where a declaration stands: lines and columns from 1, the last column
included; -1 for what stands in no source. -/
structure Span where
  startLine : Int := -1
  startColumn : Int := -1
  endLine : Int := -1
  endColumn : Int := -1
  deriving DecidableEq

/-- The extent of a node. -/
def Span.ofNode (p : ParsedSource) (n : Node) : Span :=
  ⟨p.source.startLine n, p.source.column n.start + 1, p.source.endLine n, p.source.column n.stop⟩

/-- An expression and the source that it stands in. -/
structure Expression where
  node : Node
  source : ParsedSource

/-- A declared property. -/
structure PropertyDeclaration where
  name : String
  visibility : Visibility := .isPublic
  isStatic : Bool := false
  isReadonly : Bool := false
  isPromoted : Bool := false
  typeText : Option String := none
  default : Option Expression := none
  docComment : String := ""
  span : Span := {}

namespace PropertyDeclaration

/-- Kinds of nodes that declare properties. -/
def nodeKinds : List String := ["property_declaration", "property_promotion_parameter"]

/-- The name of a property without its dollar signs. -/
def bareName (written : String) : String := String.ofList (written.toList.dropWhile (· == '$'))

/-- The declaration, unless its name is empty. -/
def named (d : PropertyDeclaration) : Outcome PropertyDeclaration :=
  if d.name.isEmpty then .error .namelessProperty else .ok d

/-- The node of a declared variable. -/
def variableNode? (n : Node) : Option Node :=
  n.childInField? "name" <|> n.childOfKind? "variable_name"

/-- What the properties of one statement share. -/
def shared (p : ParsedSource) (s : Sited) : PropertyDeclaration where
  name := ""
  visibility := Modifier.visibility p s.node
  isStatic := Modifier.has p s.node "static"
  isReadonly := Modifier.has p s.node "readonly"
  typeText := (s.node.childInField? "type").map p.text
  docComment := DocComment.preceding p s
  span := Span.ofNode p s.node

/-- The initial value of an element of a property statement. -/
def initialValue? (n : Node) : Option Node :=
  n.childInField? "default_value"
    <|> (n.childOfKind? "property_initializer").bind (·.namedChildren.getLast?)

/-- The property that a part of a statement declares, if it declares one. -/
def ofPart? (p : ParsedSource) (common : PropertyDeclaration) (n : Node) :
    Option PropertyDeclaration :=
  if n.kind == "property_element" then
    (variableNode? n).map fun v =>
      { common with
        name := bareName (p.text v), default := (initialValue? n).map fun d => ⟨d, p⟩ }
  else if n.kind == "variable_name" then some { common with name := bareName (p.text n) }
  else none

/-- The property that a constructor parameter declares. -/
def ofParameter (p : ParsedSource) (s : Sited) : Outcome PropertyDeclaration :=
  match variableNode? s.node with
  | none => .error .namelessPromotion
  | some v =>
    named { shared p s with name := bareName (p.text v), isStatic := false, isPromoted := true }

/-- The properties that a node declares. -/
def ofNode (p : ParsedSource) (s : Sited) : Outcome (List PropertyDeclaration) :=
  if !nodeKinds.contains s.node.kind then .error (.notAPropertyNode s.node.kind)
  else if s.node.kind == "property_promotion_parameter" then do return [← ofParameter p s]
  else (s.node.children.filterMap (ofPart? p (shared p s))).mapM named

/-- The constructor parameters in the body of a class that declare properties. -/
def promotedParameters (p : ParsedSource) (body : Node) : List Sited :=
  let isConstructor (n : Node) : Bool :=
    n.kind == "method_declaration"
      && ((n.childInField? "name").map fun m => LetterCase.lower (p.text m)) == some "__construct"
  match body.children.find? isConstructor with
  | none => []
  | some constructorNode =>
    match constructorNode.childInField? "parameters" with
    | none => []
    | some parameters =>
      (Sited.children parameters).filter (·.node.kind == "property_promotion_parameter")

/-- The nodes in the body of a class that declare properties: those of its
statements, then its constructor's parameters. -/
def nodesOfBody (p : ParsedSource) (body : Node) : List Sited :=
  (Sited.children body).filter (·.node.kind == "property_declaration") ++ promotedParameters p body

end PropertyDeclaration

end StaticReflection
