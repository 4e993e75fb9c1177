import StaticReflection.Declaration.ClassLike
import StaticReflection.Declaration.Constant
import StaticReflection.Declaration.Property

/-!
# Reflected classes

A class-like with the source it was found in, and what its declaration says by
itself: names, kind, modifiers, lines, and the names of the classes it refers to.
Nothing here looks at another class.
-/

namespace StaticReflection

/-- A class-like and the source it stands in. -/
structure ReflectedClass where
  classLike : ClassLike
  source : ParsedSource

namespace ReflectedClass

variable (c : ReflectedClass)

/-- The node that declares the class. -/
def node : Node := c.classLike.node

/-- The full name. -/
def name : String := c.classLike.name

/-- The key under which the class is looked up. -/
def key : String := c.classLike.key

/-- The name without its namespace. -/
def shortName : String := c.classLike.shortName

/-- The namespace; empty outside all namespaces. -/
def namespaceName : String := c.classLike.scope.namespaceName

/-- The full name of a class as it is written in this one's file. -/
def resolveName (written : String) : String := c.classLike.scope.resolve written

/-- Whether the class is of a kind. -/
def isKind (kind : ClassKind) : Bool := c.classLike.kind == kind

/-- Whether the class is declared abstract. -/
def isAbstract : Bool := Modifier.has c.source c.node "abstract"

/-- Whether the class is declared final. -/
def isFinal : Bool := Modifier.has c.source c.node "final"

/-- The doc comment; empty if there is none. -/
def docComment : String := DocComment.preceding c.source c.classLike.site

/-- The line on which the declaration starts. -/
def startLine : Nat := c.source.source.startLine c.node

/-- The line on which the declaration ends. -/
def endLine : Nat := c.source.source.endLine c.node

/-- The file of the class, if it comes from one. -/
def fileName? : Option String := c.source.fileName?

/-- The directory part of a path: all before the last slash, and without the
slashes that end it unless it has nothing else. -/
def directoryPart (path : String) : String :=
  let head := (path.toList.reverse.dropWhile (· != '/'))
  let bare := head.dropWhile (· == '/')
  String.ofList (if bare.isEmpty then head.reverse else bare.reverse)

/-- The directory of the class's file, backslashes read as slashes. -/
def directoryName? : Option String :=
  (c.fileName?.filter (!·.isEmpty)).map fun path =>
    directoryPart (path.map fun ch => if ch = '\\' then '/' else ch)

/-- Kinds of nodes that name a class in a clause. -/
def nameKinds : List String := ["name", "qualified_name"]

/-- The full names that a node refers to. -/
def namesIn (n : Node) : List String :=
  (n.children.filter fun m => nameKinds.contains m.kind).map fun m =>
    c.resolveName (c.source.text m)

/-- The full names in the first clause of a kind. -/
def clauseNames (kind : String) : List String :=
  ((c.node.childOfKind? kind).map c.namesIn).getD []

/-- The name of the parent; only a class has one. -/
def parentName? : Option String :=
  if c.isKind .classKind then (c.clauseNames "base_clause").head? else none

/-- The names of the interfaces that the class names. -/
def interfaceNames : List String :=
  c.clauseNames (if c.isKind .interfaceKind then "base_clause" else "class_interface_clause")

/-- The body of the declaration. -/
def body? : Option Node := c.node.childInField? "body"

/-- The names of the traits that the class uses, in the order of their mention. -/
def traitNames : List String :=
  match c.body? with
  | none => []
  | some body => (body.children.filter (·.kind == "use_declaration")).flatMap c.namesIn

/-- The constants that the class declares, one of each name. -/
def constants : List ConstantDeclaration :=
  match c.body? with
  | none => []
  | some body => ConstantDeclaration.distinct (ConstantDeclaration.ofBody c.source body)

/-- The constant that the class declares under a name. -/
def constant? (name : String) : Option ConstantDeclaration :=
  c.constants.find? fun d => d.name == name

/-- The nodes of the class that declare properties. -/
def propertyNodes : List Sited :=
  match c.body? with
  | none => []
  | some body => PropertyDeclaration.nodesOfBody c.source body

/-- The names of the classes that a constant may be inherited from: the parent,
then the interfaces. -/
def relatedNames : List String :=
  (c.parentName?.filter (!·.isEmpty)).toList ++ c.interfaceNames

/-- How a class presents itself. -/
def display : String := "<ReflectionClass " ++ c.name ++ ">"

/-- The nodes of a type in the class, in preorder, the declaration itself included. -/
def nodesOfKind (kind : String) : List Sited :=
  (Sited.preorder c.classLike.site.before c.node).filter (·.node.kind == kind)

end ReflectedClass

end StaticReflection
