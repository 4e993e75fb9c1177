import StaticReflection.Grammar.Names
import StaticReflection.Grammar.Operators

/-!
# Rules that refer back

Expressions hold blocks and classes, which hold statements, members and
expressions again. `Rules` stands for the three scans that close these circles;
all further rules take it as a parameter.

Here are the rules that most others use: blocks, arguments and attributes. Where
the inside of brackets does not read as it should, the brackets are passed as a
whole, so that only their extent is known.
-/

namespace StaticReflection.Grammar

/-- The scans that the rules refer back to. -/
structure Rules where
  /-- An expression whose operators all have at least a level. -/
  expression : Nat → Scan Node
  /-- A member of a class. -/
  classMember : Scan Node
  /-- A statement. -/
  statement : Scan Node

namespace Rules

open Scan

variable (R : Rules)

/-- Any expression. -/
def anyExpression : Scan Node := R.expression 0

/-- A group in parentheses, passed as a whole. -/
def parens (kind : String) : Scan Node := group kind "(" R.anyExpression

/-- A group in braces, passed as a whole. -/
def braces (kind : String) : Scan Node := group kind "\x7b" R.anyExpression

/-- A value that may be left out. -/
def optionalValue : Scan (List Node) := orNone (one R.anyExpression)

/-- An expression in parentheses. -/
def parenthesized : Scan Node :=
  node "parenthesized_expression" do return [← mark "(", ← R.anyExpression, ← mark ")"]

/-- A variable that is taken by reference. -/
def byReference : Scan Node :=
  node "by_ref" do return [← mark "&", ← R.expression operandLevel]

/-! ## Blocks -/

/-- A block of statements. -/
def compound : Scan Node :=
  node "compound_statement" do
    let before ← mark "\x7b"
    let statements ← many (one R.statement)
    return before :: statements ++ [← mark "\x7d"]

/-- The body of a function. -/
def functionBody : Scan Node := do
  return (← R.compound <|> R.braces "compound_statement").inField "body"

/-! ## Arguments -/

/-- An argument that is named. -/
def namedArgument : Scan (List Node) := do
  let called ← name
  let colon ← mark ":"
  require ((← rest).head? != some ':')
  return [called.inField "name", colon, ← R.anyExpression]

/-- An argument of a call, which may be named or spread. -/
def argument : Scan Node :=
  node "argument" <|
    one (node "variadic_unpacking" do return [← mark "...", ← R.anyExpression])
      <|> R.namedArgument <|> one (R.byReference <|> R.anyExpression)

/-- The dots that stand for arguments still to be given. -/
def placeholder : Scan Node :=
  node "variadic_placeholder" do
    let dots ← mark "..."
    require (← ahead (mark ")"))
    return [dots]

/-- The arguments of a call. -/
def arguments : Scan Node :=
  (node "arguments" do
    let before ← mark "("
    let given ← one placeholder <|> listed R.argument
    return before :: given ++ [← mark ")"])
  <|> R.parens "arguments"

/-! ## Attributes -/

/-- An attribute: a name, with arguments or without. -/
def attributeEntry : Scan Node :=
  node "attribute" do
    let called ← className
    let given ← orNone (one R.arguments)
    return called :: given.map (·.inField "parameters")

/-- Attributes in one pair of brackets. -/
def attributeGroup : Scan Node :=
  (node "attribute_group" do
    let before ← mark "#["
    let found ← listed R.attributeEntry
    return before :: found ++ [← mark "]"])
  <|> group "attribute_group" "#[" R.anyExpression

/-- The attributes before a declaration. -/
def attributes : Scan (List Node) :=
  orNone do
    let list ← node "attribute_list" do
      let first ← R.attributeGroup
      return first :: (← many (one R.attributeGroup))
    return [list.inField "attributes"]

end Rules

end StaticReflection.Grammar
