import StaticReflection.Grammar.Expression

/-!
# Class-like declarations and their members

Classes, interfaces, traits and enums, from their first attribute or modifier to
the closing brace. A member is a use of traits, an enum case, a list of
constants, a method or a list of properties; modifiers stand before it in any
order. A parameter with a visibility modifier declares a property as well.
-/

namespace StaticReflection.Grammar.Rules

open Scan

variable (R : Rules)

/-- The end of a statement: a semicolon, or a closing tag, which is left to be passed. -/
def terminator : Scan (List Node) := do
  skipInside
  if (← rest).take 2 == ['?', '>'] then return []
  return [← mark ";"]

/-! ## Members -/

/-- The modifiers of members that are a single word and no visibility. -/
def memberWords : List String := ["static", "readonly", "abstract", "final", "var"]

/-- The modifiers of a member. -/
def memberModifiers : Scan (List Node) :=
  many (one (visibilityModifier <|> wordModifier memberWords))

/-- One property of a declaration. -/
def propertyElement : Scan Node :=
  node "property_element" do
    let v ← declaredVariable
    return v.inField "name" :: (← R.initialValue)

/-- A declaration of properties after its attributes and modifiers. -/
def properties : Scan (List Node) := do
  let type ← variableType
  let elements ← separated R.propertyElement
  let ending ← R.propertyHooks <|> terminator
  return type ++ elements ++ ending

/-- One constant of a declaration. -/
def constantElement : Scan Node :=
  node "const_element" do return [← name, ← mark "=", ← R.anyExpression]

/-- A declaration of constants after its attributes and modifiers. -/
def constants : Scan (List Node) := do
  let k ← keyword "const"
  -- a lone name is that of the constant, two names are a type and the constant
  let typed ← separated R.constantElement <|> (do
    let type ← declaredType
    return type.inField "type" :: (← separated R.constantElement))
  return k :: typed ++ (← terminator)

/-- A method after its attributes and modifiers. -/
def method : Scan (List Node) := do
  let k ← keyword "function"
  let reference ← referenceModifier
  let called ← name
  let parameters ← R.formalParameters
  let result ← returnType
  let ending ← one R.functionBody <|> terminator
  return k :: reference ++ called.inField "name" :: parameters :: result ++ ending

/-- A method of a trait, with the trait or without. -/
def traitMethod : Scan Node :=
  (do
    let owner ← className
    let sign ← mark "::"
    nodeFrom "class_constant_access_expression" owner.start [owner, sign, ← name])
  <|> name

/-- A new name for a method of a trait, with a visibility or without. -/
def traitAlias : Scan Node :=
  node "use_as_clause" do
    let given ← traitMethod
    let k ← keyword "as"
    let visibility ← orNone (one visibilityModifier)
    let called ← orNone (one name)
    return given :: k :: visibility ++ called

/-- A choice between methods of traits. -/
def traitChoice : Scan Node :=
  node "use_instead_of_clause" do
    return [← traitMethod, ← keyword "insteadof", ← className]

/-- How the methods of used traits are taken. -/
def traitRules : Scan Node :=
  (node "use_list" do
    let before ← mark "\x7b"
    let found ← many (do return [← traitChoice <|> traitAlias, ← mark ";"])
    return before :: found ++ [← mark "\x7d"])
  <|> R.braces "use_list"

/-- A use of traits. -/
def traitUse : Scan Node :=
  node "use_declaration" do
    let k ← keyword "use"
    let names ← separated className
    let ending ← one R.traitRules <|> terminator
    return k :: names ++ ending

/-- A case of an enum after its attributes. -/
def enumCase : Scan (List Node) := do
  let k ← keyword "case"
  let called ← name
  let value ← orNone (do
    let sign ← mark "="
    return [sign, (← R.anyExpression).inField "value"])
  return k :: called.inField "name" :: value ++ (← terminator)

/-- A member of a class, which may refer to members and expressions inside it. -/
def memberStep : Scan Node :=
  R.traitUse <|> do
    let start ← place
    let attributes ← R.attributes
    let modifiers ← memberModifiers
    let finish (kind : String) (part : Scan (List Node)) : Scan Node := do
      nodeFrom kind start (attributes ++ modifiers ++ (← part))
    finish "enum_case" R.enumCase <|> finish "const_declaration" R.constants
      <|> finish "method_declaration" R.method <|> finish "property_declaration" R.properties

/-! ## Class-likes -/

/-- The parts of a class after its attributes and modifiers. -/
def classParts : Scan (List Node) := do
  let k ← keyword "class"
  let called ← name
  let base ← nameClause "base_clause" "extends"
  let interfaces ← nameClause "class_interface_clause" "implements"
  let body ← R.classBody "declaration_list"
  return k :: called.inField "name" :: base ++ interfaces ++ [body.inField "body"]

/-- The parts of an interface after its attributes. -/
def interfaceParts : Scan (List Node) := do
  let k ← keyword "interface"
  let called ← name
  let base ← nameClause "base_clause" "extends"
  let body ← R.classBody "declaration_list"
  return k :: called.inField "name" :: base ++ [body.inField "body"]

/-- The parts of a trait after its attributes. -/
def traitParts : Scan (List Node) := do
  let k ← keyword "trait"
  let called ← name
  let body ← R.classBody "declaration_list"
  return [k, called.inField "name", body.inField "body"]

/-- The parts of an enum after its attributes. -/
def enumParts : Scan (List Node) := do
  let k ← keyword "enum"
  let called ← name
  let backing ← backingType
  let interfaces ← nameClause "class_interface_clause" "implements"
  let body ← R.classBody "enum_declaration_list"
  return k :: called.inField "name" :: backing ++ interfaces ++ [body.inField "body"]

/-- A class-like declaration. -/
def classLike : Scan Node := do
  let start ← place
  let attributes ← R.attributes
  let modifiers ← many (one (wordModifier ["abstract", "final", "readonly"]))
  let finish (kind : String) (part : Scan (List Node)) : Scan Node := do
    nodeFrom kind start (attributes ++ modifiers ++ (← part))
  finish "class_declaration" R.classParts <|> finish "interface_declaration" R.interfaceParts
    <|> finish "trait_declaration" R.traitParts <|> finish "enum_declaration" R.enumParts

end StaticReflection.Grammar.Rules
