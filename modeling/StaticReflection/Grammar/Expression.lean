import StaticReflection.Grammar.Number
import StaticReflection.Grammar.Parameters

/-!
# Expressions

The syntax tree of an expression, built outside in: an operand with what follows
it (calls, members, indices, an assignment), then binary and conditional
operators from the left as long as they bind tightly enough. An assignment needs
no such strength: its left side is a variable, and so cannot belong to anything
else.
-/

namespace StaticReflection.Grammar.Rules

open Scan

variable (R : Rules)

/-! ## Operands that nothing may follow -/

/-- A keyword followed by an expression that takes all it can. -/
def greedyForms : List (String × String) := [
  ("print", "print_intrinsic"), ("throw", "throw_expression"), ("include", "include_expression"),
  ("include_once", "include_once_expression"), ("require", "require_expression"),
  ("require_once", "require_once_expression")]

/-- An expression that begins with a keyword and takes all it can. -/
def greedyForm : Scan Node := do
  let w ← nextWord
  match greedyForms.lookup w with
  | some kind => node kind do return [← keyword w, ← R.anyExpression]
  | none => decline

/-- A truth value or null. -/
def literalWord : Scan Node := do
  let w ← nextWord
  if w == "true" || w == "false" then wordAs "boolean"
  else do
    require (w == "null")
    wordAs "null"

/-- An increment or decrement before its variable. -/
def updateBefore : Scan Node :=
  node "update_expression" do
    return [← mark "++" <|> mark "--", ← R.expression unaryLevel]

/-- A sign, complement or negation and its operand. -/
def unary : Scan Node :=
  node "unary_op_expression" do
    let operator ← mark "-" <|> mark "+" <|> mark "~" <|> mark "!"
    let argument ← R.expression unaryLevel
    return [operator.inField "operator", argument.inField "argument"]

/-- An operand whose errors are silenced. -/
def suppression : Scan Node :=
  node "error_suppression_expression" do
    return [← mark "@", ← R.expression unaryLevel]

/-- The types that a value may be cast to. -/
def castTypes : List String := ["array", "binary", "bool", "boolean", "double", "float", "int",
  "integer", "object", "real", "string", "unset"]

/-- A cast. -/
def cast : Scan Node :=
  node "cast_expression" do
    let before ← mark "("
    let w ← nextWord
    require (castTypes.contains w)
    let type ← wordAs "cast_type"
    let after ← mark ")"
    let value ← R.expression operandLevel
    return [before, type.inField "type", after, value.inField "value"]

/-- A copy of an object. -/
def copy : Scan Node :=
  node "clone_expression" do return [← keyword "clone", ← R.expression operandLevel]

/-- What a generator yields. -/
def yieldForm : Scan Node :=
  node "yield_expression" do
    let k ← keyword "yield"
    let source ← orNone (one (keyword "from"))
    let given ← orNone (one R.anyExpression)
    let paired ← orNone (do return [← mark "=>", ← R.anyExpression])
    return k :: source ++ given ++ paired

/-- The start of a function without a name: attributes, `static`, a keyword, a
reference mark and parameters. -/
def functionStart (spelling : String) : Scan (List Node) := do
  let before := (← R.attributes) ++ (← orNone (one (wordModifier ["static"])))
  let k ← keyword spelling
  let reference ← referenceModifier
  return before ++ k :: reference ++ [← R.formalParameters]

/-- The variables that a function without a name takes from around it. -/
def capturedVariables : Scan Node :=
  node "anonymous_function_use_clause" do
    let k ← keyword "use"
    return k :: (← mark "(") :: (← listed parameterName) ++ [← mark ")"]

/-- A function without a name. -/
def anonymousFunction : Scan Node :=
  node "anonymous_function" do
    let header ← R.functionStart "function"
    let captured ← orNone (one capturedVariables)
    let result ← returnType
    return header ++ captured ++ result ++ [← R.functionBody]

/-- A function that is one expression. -/
def arrowFunction : Scan Node :=
  node "arrow_function" do
    let header ← R.functionStart "fn"
    let result ← returnType
    return header ++ result ++ [← mark "=>", (← R.anyExpression).inField "body"]

/-- An operand that no call, member or index may follow. -/
def closedOperand : Scan Node :=
  literalWord <|> number <|> R.updateBefore <|> R.unary <|> R.suppression <|> R.cast
    <|> R.greedyForm <|> R.copy <|> R.yieldForm <|> R.arrowFunction <|> R.anonymousFunction

/-! ## Operands that calls, members and indices may follow -/

/-- What an element of an array holds, by value or by reference. -/
def elementValue : Scan Node := R.byReference <|> R.anyExpression

/-- An element of an array. -/
def arrayElement : Scan Node :=
  node "array_element_initializer" <|
    one (node "variadic_unpacking" do return [← mark "...", ← R.anyExpression])
      <|> do
        let first ← R.elementValue
        let second ← orNone (do return [← mark "=>", ← R.elementValue])
        return first :: second

/-- An array. -/
def array : Scan Node :=
  node "array_creation_expression" <|
    (do return (← mark "[") :: (← listed R.arrayElement) ++ [← mark "]"])
      <|> do
        let k ← keyword "array"
        return k :: (← mark "(") :: (← listed R.arrayElement) ++ [← mark ")"]

/-- A list of variables that an array is assigned to. -/
def listLiteral : Scan Node :=
  node "list_literal" do
    let k ← keyword "list"
    return k :: (← mark "(") :: (← listed R.arrayElement) ++ [← mark ")"]

/-- An arm of a choice between values. -/
def matchArm : Scan Node :=
  node "match_default_expression" (do
      return [← keyword "default", ← mark "=>", ← R.anyExpression])
    <|> node "match_conditional_expression" do
      let conditions ← node "match_condition_list" (listed R.anyExpression)
      return [conditions, ← mark "=>", ← R.anyExpression]

/-- The arms of a choice between values. -/
def matchBlock : Scan Node :=
  (node "match_block" do
    let before ← mark "\x7b"
    let arms ← listed R.matchArm
    return before :: arms ++ [← mark "\x7d"])
  <|> R.braces "match_block"

/-- A choice between values by identity. -/
def matchForm : Scan Node :=
  node "match_expression" do
    let k ← keyword "match"
    return [k, (← R.parenthesized).inField "condition", (← R.matchBlock).inField "body"]

/-- The names after a keyword such as `extends`. -/
def nameClause (kind spelling : String) : Scan (List Node) :=
  orNone <| one <| node kind do return (← keyword spelling) :: (← separated className)

/-- The body of a class, as a node of a kind. -/
def classBody (kind : String) : Scan Node :=
  node kind do
    let before ← mark "\x7b"
    let members ← many (one R.classMember)
    return before :: members ++ [← mark "\x7d"]

/-- A class without a name and the arguments for its constructor. -/
def anonymousClass : Scan Node :=
  node "anonymous_class" do
    let attributes ← R.attributes
    let modifiers ← many (one (wordModifier ["readonly"]))
    let k ← keyword "class"
    let arguments ← orNone (one R.arguments)
    let base ← nameClause "base_clause" "extends"
    let interfaces ← nameClause "class_interface_clause" "implements"
    let body ← R.classBody "declaration_list"
    return attributes ++ modifiers ++ k :: arguments ++ base ++ interfaces
      ++ [body.inField "body"]

/-- The name of a member of an object: a name, a variable, or an expression in braces. -/
def memberName : Scan (List Node) :=
  (do return [(← name <|> variableName R.anyExpression).inField "name"])
    <|> do return [← mark "\x7b", (← R.anyExpression).inField "name", ← mark "\x7d"]

/-- An index in brackets, which may be left out. -/
def indexBrackets : Scan (List Node) :=
  (do
    let before ← mark "["
    let inner ← R.optionalValue
    return before :: inner ++ [← mark "]"])
  <|> one (group "index" "[" R.anyExpression)

/-- A member or index on the way to the class of a new object. -/
def designatedPart (n : Node) : Scan Node :=
  (do
    let arrow ← mark "->" <|> mark "?->"
    nodeFrom "member_access_expression" n.start (n :: arrow :: (← R.memberName)))
  <|> (do
    let sign ← mark "::"
    nodeFrom "scoped_property_access_expression" n.start
      [n, sign, ← variableName R.anyExpression])
  <|> do nodeFrom "subscript_expression" n.start (n :: (← R.indexBrackets))

/-- What names the class of a new object: a name, or a variable with its members. -/
def designated : Scan Node :=
  className <|> R.parenthesized <|> do
    iterate R.designatedPart (← variableName R.anyExpression)

/-- A new object. -/
def creation : Scan Node :=
  node "object_creation_expression" do
    let k ← keyword "new"
    (do return [k, ← R.anonymousClass]) <|> do
      let designator ← R.designated
      let arguments ← orNone (one R.arguments)
      return k :: designator :: arguments

/-- The class that a constant or static member is looked up from, if it is a keyword. -/
def relativeScope : Scan Node := do
  let word ← keyword "static" <|> keyword "self" <|> keyword "parent"
  let found ← ahead (mark "::")
  require (found || word.kind == "static")
  nodeFrom "relative_scope" word.start [word]

/-- An operand that calls, members and indices may follow. -/
def openOperand : Scan Node :=
  quotation R.anyExpression <|> R.array <|> R.parenthesized <|> variableName R.anyExpression
    <|> R.creation <|> R.listLiteral <|> R.matchForm <|> relativeScope <|> className

/-! ## What follows an operand -/

/-- A call. -/
def call (n : Node) : Scan Node := do
  let arguments ← R.arguments
  nodeFrom "function_call_expression" n.start
    [n.inField "function", arguments.inField "arguments"]

/-- An index. -/
def index (n : Node) : Scan Node := do
  nodeFrom "subscript_expression" n.start (n :: (← R.indexBrackets))

/-- A node from an operand on, with arguments if it is a call. -/
def orCall (R : Rules) (kind callKind : String) (start : Nat) (children : List Node) :
    Scan Node := do
  match ← maybe R.arguments with
  | some arguments => nodeFrom callKind start (children ++ [arguments])
  | none => nodeFrom kind start children

/-- A member of an object, or a call of one. -/
def member (n : Node) : Scan Node :=
  (do
    let sign ← mark "->"
    let found ← R.memberName
    R.orCall "member_access_expression" "member_call_expression" n.start (n :: sign :: found))
  <|> do
    let sign ← mark "?->"
    let found ← R.memberName
    R.orCall "nullsafe_member_access_expression" "nullsafe_member_call_expression" n.start
      (n :: sign :: found)

/-- A constant, static property or static method of a class. -/
def staticMember (n : Node) : Scan Node := do
  let sign ← mark "::"
  (do
    let found ← name
    R.orCall "class_constant_access_expression" "scoped_call_expression" n.start [n, sign, found])
  <|> (do
    let found ← variableName R.anyExpression
    R.orCall "scoped_property_access_expression" "scoped_call_expression" n.start
      [n, sign, found])
  <|> do
    let before ← mark "\x7b"
    let found ← R.anyExpression
    let after ← mark "\x7d"
    R.orCall "class_constant_access_expression" "scoped_call_expression" n.start
      [n, sign, before, found, after]

/-- The kinds of expressions that can be assigned to. -/
def assignable : List String := ["variable_name", "dynamic_variable_name", "subscript_expression",
  "member_access_expression", "nullsafe_member_access_expression",
  "scoped_property_access_expression", "list_literal", "array_creation_expression"]

/-- An increment or decrement after its variable. -/
def updateAfter (n : Node) : Scan Node := do
  require (assignable.contains n.kind)
  let sign ← mark "++" <|> mark "--"
  nodeFrom "update_expression" n.start [n, sign]

/-- One thing that may follow an operand. -/
def following (n : Node) : Scan Node :=
  R.call n <|> R.index n <|> R.member n <|> R.staticMember n <|> updateAfter n

/-- The plain sign of assignment. -/
def assignmentSign : Scan Node := do
  skip
  let next := ((← rest).drop 1).head?
  require (next != some '=' && next != some '>')
  mark "="

/-- An assignment to an operand. -/
def assignment (n : Node) : Scan Node := do
  require (assignable.contains n.kind)
  let left := n.inField "left"
  (do
    let sign ← assignmentSign
    match ← maybe (mark "&") with
    | some reference =>
      let value ← R.expression assignedLevel
      nodeFrom "reference_assignment_expression" n.start
        [left, sign, reference, value.inField "right"]
    | none =>
      let value ← R.expression assignedLevel
      nodeFrom "assignment_expression" n.start [left, sign, value.inField "right"])
  <|> do
    skip
    let here ← rest
    match augmentedSpellings.find? (startsWith here) with
    | some spelling =>
      let sign ← mark spelling
      let value ← R.expression assignedLevel
      nodeFrom "augmented_assignment_expression" n.start
        [left, sign.inField "operator", value.inField "right"]
    | none => decline

/-- An operand with all that follows it. -/
def operand : Scan Node :=
  R.closedOperand <|> do
    let first ← R.openOperand
    let n ← iterate R.following first
    return (← maybe (R.assignment n)).getD n

/-! ## Operators -/

/-- A binary operator of at least a level after its left operand. -/
def binary (level : Nat) (left : Node) : Scan Node := do
  let rule ← binaryRule
  require (level ≤ rule.level)
  let operator ← leaf rule.spelling false rule.spelling.length
  let right ← R.expression rule.rightLevel
  nodeFrom "binary_expression" left.start
    [left.inField "left", operator.inField "operator", right.inField "right"]

/-- The conditional operator after its condition. -/
def conditional (level : Nat) (condition : Node) : Scan Node := do
  require (level ≤ conditionalLevel)
  let question ← mark "?"
  let body ← orNone (one R.anyExpression)
  let colon ← mark ":"
  let alternative ← R.expression (conditionalLevel + 1)
  nodeFrom "conditional_expression" condition.start <|
    condition.inField "condition" :: question :: body.map (·.inField "body")
      ++ [colon, alternative.inField "alternative"]

/-- An expression whose operators all have at least a level. -/
def expressionStep (level : Nat) : Scan Node := do
  let first ← R.operand
  iterate (fun left => R.binary level left <|> R.conditional level left) first

end StaticReflection.Grammar.Rules
