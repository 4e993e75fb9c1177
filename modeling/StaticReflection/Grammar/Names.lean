import StaticReflection.Grammar.Group

/-!
# Names and types

A name is qualified if a backslash stands in it or before it; one that begins
with `namespace\` is relative. A declared type is a name, or types joined by bars
and ampersands, in parentheses or after a question mark; an ampersand before a
variable belongs to the variable.
-/

namespace StaticReflection.Grammar.Scan

/-- A name after a backslash. -/
def nextSegment : Scan (List Node) := do
  let separator ← mark "\\"
  let n ← name
  return [separator, n]

/-- The names before the last of a qualified name, with the backslash after them. -/
def pathPart : List Node → List Node
  | n :: separator :: rest =>
    let path := n :: separator :: rest
    let names := path.dropLast
    let stop := (names.getLast?.getD n).stop
    let whole : Node := ⟨"namespace_name", n.start, stop, some "prefix", true, false, names⟩
    whole :: path.getLast?.toList.map (·.inField "prefix")
  | path => path

/-- A name, qualified or not. -/
def anyName : Scan Node := do
  let start ← place
  let leading ← orNone (one (mark "\\"))
  let first ← name
  let more ← many nextSegment
  if leading.isEmpty && more.isEmpty then return first
  let segments := first :: more
  nodeFrom "qualified_name" start <|
    leading.map (·.inField "prefix") ++ pathPart segments.dropLast ++ segments.getLast?.toList

/-- A name that begins with the current namespace. -/
def relativeName : Scan Node :=
  node "relative_name" do
    let k ← keyword "namespace"
    let more ← many nextSegment
    require (!more.isEmpty)
    return k :: more

/-- A name of a class where one is referred to. -/
def className : Scan Node := relativeName <|> anyName

/-- An expression in braces; what does not read as one is passed as a group. -/
def bracedGroup (expression : Scan Node) : Scan (List Node) :=
  (do return [← mark "\x7b", ← expression, ← mark "\x7d"])
    <|> one (group "expression_group" "\x7b" expression)

/-- A variable, possibly one that is named by an expression. -/
def variableName (expression : Scan Node) : Scan Node := do
  skip
  variableHere <|> node "dynamic_variable_name" do
    let dollars := (← rest).takeWhile (· == '$')
    require (!dollars.isEmpty)
    take (dollars.length - 1)
    match ← maybe variableHere with
    | some v => return [v]
    | none => do
      take 1
      bracedGroup expression

/-- Names of types that are built in; all but `callable` are so only in lower case. -/
def builtInTypes : List String := ["array", "bool", "callable", "false", "float", "int", "iterable",
  "mixed", "null", "static", "string", "true", "void"]

/-- The next word as a built-in type. -/
def builtInType : Scan String := do
  skip
  let w := (← word?).getD ""
  require (builtInTypes.contains w || w.toLower == "callable")
  return w.toLower

/-- A type that is a name. -/
def namedType : Scan Node :=
  node "primitive_type" (do one (keyword (← builtInType)))
    <|> node "bottom_type" (one (keyword "never"))
    <|> node "named_type" (one className)

/-- Types in parentheses, passed as a group. -/
def groupedType : Scan Node := group "grouped_type" "(" namedType

/-- The sign that joins the next type: a bar, or an ampersand with no variable after it. -/
def typeJoint : Scan (List Node) :=
  one (mark "|") <|> do
    let sign ← mark "&"
    skip
    match ← rest with
    | c :: _ => do
      require (!(c == '$' || c == '.' || c == '&'))
      return [sign]
    | [] => decline

/-- Another type after a sign that joins it. -/
def joinedType : Scan (List Node) := do
  return (← typeJoint) ++ [← namedType <|> groupedType]

/-- A declared type. -/
def declaredType : Scan Node :=
  node "optional_type" (do return [← mark "?", ← namedType])
    <|> do
      let start ← place
      let first ← namedType <|> groupedType
      let more ← many joinedType
      match more with
      | [] => return first
      | sign :: _ =>
        let kind := if sign.kind == "|" then "union_type" else "intersection_type"
        nodeFrom kind start (first :: more)

/-- The declared type of what a function returns, if it has one. -/
def returnType : Scan (List Node) :=
  orNone do return [← mark ":", (← declaredType).inField "return_type"]

/-- The declared type of the values of an enum's cases, if they have values. -/
def backingType : Scan (List Node) :=
  orNone do
    let colon ← mark ":"
    let type ← (do let _ ← builtInType; wordAs "primitive_type") <|> declaredType
    return [colon, type]

end StaticReflection.Grammar.Scan
