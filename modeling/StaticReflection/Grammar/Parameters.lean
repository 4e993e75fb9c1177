import StaticReflection.Grammar.Rules

/-!
# Modifiers, parameters and hooks

The words before a member, and the parameters of functions. A parameter with a
visibility modifier declares a property as well, and like a declared property
may have hooks.
-/

namespace StaticReflection.Grammar.Rules

open Scan

variable (R : Rules)

/-! ## Modifiers -/

/-- A visibility, possibly one for writing only. -/
def visibilityModifier : Scan Node :=
  node "visibility_modifier" do
    let k ← oneKeyword ["public", "protected", "private"]
    let operation ← orNone (do
      let before ← mark "("
      require ((← nextWord) == "set")
      return [before, ← wordAs "operation", ← mark ")"])
    return k :: operation

/-- A modifier that is a single word. -/
def wordModifier (words : List String) : Scan Node := do
  let w ← nextWord
  require (words.contains w)
  node (w ++ "_modifier") (one (keyword w))

/-- The mark of a reference, if it is there. -/
def referenceModifier : Scan (List Node) :=
  orNone do
    skip
    require ((← rest).head? == some '&')
    one (leaf "reference_modifier" true 1)

/-! ## Parameters -/

/-- A variable name where one is declared. -/
def declaredVariable : Scan Node := do skip; variableHere

/-- The declared type of a variable, if it has one. -/
def variableType : Scan (List Node) := orNone do return [(← declaredType).inField "type"]

/-- An initial value. -/
def initialValue : Scan (List Node) :=
  orNone do
    let sign ← mark "="
    return [sign, (← R.anyExpression).inField "default_value"]

/-- A parameter that declares no property. -/
def simpleParameter : Scan Node := do
  let start ← place
  let before := (← R.attributes) ++ (← variableType) ++ (← referenceModifier)
  let repeated ← orNone (one (mark "..."))
  let called := (← declaredVariable).inField "name"
  if repeated.isEmpty then
    nodeFrom "simple_parameter" start (before ++ called :: (← R.initialValue))
  else nodeFrom "variadic_parameter" start (before ++ repeated ++ [called])

/-- Parameters of some form, in parentheses. -/
def parametersOf (parameter : Scan Node) : Scan Node :=
  node "formal_parameters" do
    let before ← mark "("
    let found ← listed parameter
    return before :: found ++ [← mark ")"]

/-! ## Hooks -/

/-- What a hook does: an expression, a block, or nothing. -/
def hookBody : Scan (List Node) :=
  (do return [← mark "=>", (← R.anyExpression).inField "body", ← mark ";"])
    <|> one R.functionBody <|> one (mark ";")

/-- A hook of a property. -/
def hook : Scan Node :=
  node "property_hook" do
    let before := (← R.attributes) ++ (← many (one (wordModifier ["final"])))
    let reference ← referenceModifier
    let called ← name
    let parameters ← orNone (one (parametersOf R.simpleParameter))
    return before ++ reference ++ called :: parameters ++ (← R.hookBody)

/-- The hooks of a property. -/
def propertyHooks : Scan (List Node) :=
  one <|
    (node "property_hook_list" do
      let before ← mark "\x7b"
      let hooks ← many (one R.hook)
      return before :: hooks ++ [← mark "\x7d"])
    <|> R.braces "property_hook_list"

/-! ## Parameters that are properties -/

/-- What a parameter is called, by value or by reference. -/
def parameterName : Scan Node :=
  node "by_ref" (do return [← mark "&", ← declaredVariable]) <|> declaredVariable

/-- A parameter that declares a property. -/
def promotedParameter : Scan Node :=
  node "property_promotion_parameter" do
    let attributes ← R.attributes
    let early ← orNone (one (wordModifier ["readonly"]))
    let visibility ← visibilityModifier
    let late ← orNone (one (wordModifier ["readonly"]))
    let type ← variableType
    let called ← parameterName
    let value ← R.initialValue
    let hooks ← orNone R.propertyHooks
    return attributes ++ early.map (·.inField "readonly") ++ visibility.inField "visibility"
      :: late.map (·.inField "readonly") ++ type ++ called.inField "name" :: value ++ hooks

/-- The parameters of a function. -/
def formalParameters : Scan Node := do
  let found ← parametersOf (R.promotedParameter <|> R.simpleParameter)
  return found.inField "parameters"

end StaticReflection.Grammar.Rules
