import StaticReflection.Grammar.Declarations

/-!
# Statements

Namespaces, imports, declarations, blocks, control structures and simple statements.
A statement that reads as none of these is passed up to its end, and so is the
head of a control structure that does not read as it should: of such a stretch
only the extent is kept.
-/

namespace StaticReflection.Grammar.Rules

open Scan

variable (R : Rules)

/-! ## Namespaces and imports -/

/-- Names of a namespace with backslashes between them. -/
def namespaceName : Scan Node :=
  node "namespace_name" do
    let first ← name
    return first :: (← many nextSegment)

/-- A definition of a namespace, with a block or for what follows. -/
def namespaceDefinition : Scan Node :=
  node "namespace_definition" do
    let k ← keyword "namespace"
    let called ← orNone (do return [(← namespaceName).inField "name"])
    let ending ← (do return [(← R.compound).inField "body"]) <|> terminator
    return k :: called ++ ending

/-- The mark of an import of functions or constants. -/
def importKind : Scan (List Node) :=
  orNone (do
    let k ← oneKeyword ["function", "const"]
    return [k.inField "type"])

/-- The alias of an import. -/
def importAlias : Scan (List Node) :=
  orNone (do return [← keyword "as", (← name).inField "alias"])

/-- A single import. -/
def importClause : Scan Node :=
  node "namespace_use_clause" do
    let kind ← importKind
    let path ← anyName
    return kind ++ path :: (← importAlias)

/-- Imports in braces. -/
def importGroup : Scan Node :=
  node "namespace_use_group" do
    let before ← mark "\x7b"
    let clauses ← listed importClause
    return before :: clauses ++ [← mark "\x7d"]

/-- The path that the imports of a group share. -/
def groupPath : Scan (List Node) := do
  let leading ← orNone (one (mark "\\"))
  let path ← node "namespace_name" do
    let first ← name
    return first :: (← many (do
      let segment ← nextSegment
      require (← ahead (mark "\\"))
      return segment))
  return leading ++ [path, ← mark "\\"]

/-- Imports that share a path, possibly all of functions or of constants. -/
def groupedImports : Scan (List Node) := do
  let kind ← importKind
  let path ← groupPath
  return kind ++ path ++ [(← importGroup).inField "body"]

/-- Imports. -/
def imports : Scan Node :=
  node "namespace_use_declaration" do
    let k ← keyword "use"
    let parts ← groupedImports <|> separated importClause
    return k :: parts ++ (← terminator)

/-! ## Choices -/

/-- The condition of a control structure; what does not read as one expression is
passed as a whole. -/
def condition : Scan Node := do
  return (← R.parenthesized <|> R.parens "parenthesized_expression").inField "condition"

/-- Statements after a colon. -/
def colonBlock : Scan Node := do
  let found ← node "colon_block" do
    let colon ← mark ":"
    return colon :: (← many (one R.statement))
  return found.inField "body"

/-- The statement that a control structure governs. -/
def governed : Scan Node := do return (← R.statement).inField "body"

/-- Further branches of a choice, each governing what a scan reads. -/
def branches (body : Scan Node) : Scan (List Node) := do
  let others ← many <| one <| node "else_if_clause" do
    return [← keyword "elseif", ← R.condition, ← body]
  let last ← orNone <| one <| node "else_clause" do return [← keyword "else", ← body]
  return (others ++ last).map (·.inField "alternative")

/-- The word that ends statements after a colon. -/
def closingWord (word : String) : Scan (List Node) := do
  let k ← keyword word
  return k :: (← terminator)

/-- A choice. -/
def ifStatement : Scan Node :=
  node "if_statement" do
    let k ← keyword "if"
    let tested ← R.condition
    (do
      let body ← R.colonBlock
      let more ← R.branches R.colonBlock
      return k :: tested :: body :: more ++ (← closingWord "endif"))
    <|> do
      let body ← R.governed
      return k :: tested :: body :: (← R.branches R.governed)

/-- A case of a choice by value, or what happens in no case. -/
def caseStatement : Scan Node :=
  let statements : Scan (List Node) := do
    let sign ← mark ":" <|> mark ";"
    return sign :: (← many (one R.statement))
  node "case_statement" (do
      let k ← keyword "case"
      let value ← R.anyExpression
      return k :: value.inField "value" :: (← statements))
    <|> node "default_statement" do return (← keyword "default") :: (← statements)

/-- The cases of a choice by value. -/
def switchBlock : Scan Node := do
  let found ←
    node "switch_block" (do
        let before ← mark "\x7b"
        let cases ← many (one R.caseStatement)
        return before :: cases ++ [← mark "\x7d"])
      <|> node "switch_block" (do
        let colon ← mark ":"
        let cases ← many (one R.caseStatement)
        return colon :: cases ++ (← closingWord "endswitch"))
      <|> R.braces "switch_block"
  return found.inField "body"

/-- A choice by value. -/
def switchStatement : Scan Node :=
  node "switch_statement" do return [← keyword "switch", ← R.condition, ← R.switchBlock]

/-! ## Loops -/

/-- What a loop governs: nothing, statements after a colon, or a statement. -/
def loopBody (word : String) : Scan (List Node) :=
  one (mark ";") <|> (do return (← R.colonBlock) :: (← closingWord word)) <|> one R.governed

/-- Expressions with commas between them, as one node that holds the first and the rest. -/
def sequenceOf : List Node → List Node
  | e :: comma :: more =>
    match sequenceOf more with
    | [tail] => [⟨"sequence_expression", e.start, tail.stop, none, true, false, [e, comma, tail]⟩]
    | _ => e :: comma :: more
  | es => es

/-- Expressions with commas between them. -/
def expressions : Scan (List Node) := do return sequenceOf (← separated R.anyExpression)

/-- The head of a counting loop. -/
def forHead : Scan (List Node) :=
  (do
    let before ← mark "("
    let first ← orNone R.expressions
    let second ← mark ";"
    let tested ← orNone R.expressions
    let third ← mark ";"
    let step ← orNone R.expressions
    return before :: first ++ second :: tested ++ third :: step ++ [← mark ")"])
  <|> one (R.parens "loop_head")

/-- What an element of a sequence is assigned to. -/
def elementTarget : Scan Node := R.byReference <|> R.anyExpression

/-- What elements of a sequence are assigned to, with their keys or without. -/
def sequenceTarget : Scan Node :=
  (node "pair" do return [← R.elementTarget, ← mark "=>", ← R.elementTarget]) <|> R.elementTarget

/-- The head of a loop over a sequence. -/
def foreachHead : Scan (List Node) :=
  (do
    let before ← mark "("
    let values ← R.anyExpression
    let k ← keyword "as"
    return [before, values, k, ← R.sequenceTarget, ← mark ")"])
  <|> one (R.parens "loop_head")

/-- A counting loop. -/
def forStatement : Scan Node :=
  node "for_statement" do return (← keyword "for") :: (← R.forHead) ++ (← R.loopBody "endfor")

/-- A loop over a sequence. -/
def foreachStatement : Scan Node :=
  node "foreach_statement" do
    return (← keyword "foreach") :: (← R.foreachHead) ++ (← R.loopBody "endforeach")

/-- A loop with its condition at the start. -/
def whileStatement : Scan Node :=
  node "while_statement" do
    let k ← keyword "while"
    return k :: (← R.condition) :: (← R.loopBody "endwhile")

/-- A loop with its condition at the end. -/
def doStatement : Scan Node :=
  node "do_statement" do
    let k ← keyword "do"
    let body ← R.governed
    let w ← keyword "while"
    let tested ← R.condition
    return [k, body, w, tested] ++ (← terminator)

/-! ## Directives and exceptions -/

/-- A directive for the compiler. -/
def declareDirective : Scan Node :=
  node "declare_directive" do
    let k ← oneKeyword ["ticks", "encoding", "strict_types"]
    return [k, ← mark "=", ← R.anyExpression]

/-- Directives, and what they govern. -/
def declareStatement : Scan Node :=
  node "declare_statement" do
    let k ← keyword "declare"
    let head ← (do return [← mark "(", ← R.declareDirective, ← mark ")"])
      <|> one (R.parens "declare_directive")
    let body ← R.loopBody "enddeclare" <|> terminator
    return k :: head ++ body

/-- The types of caught exceptions. -/
def caughtTypes : Scan Node :=
  node "type_list" do
    let first ← namedType
    return first :: (← many do return [← mark "|", ← namedType])

/-- What happens when an exception is caught. -/
def catchClause : Scan Node :=
  node "catch_clause" do
    let k ← keyword "catch"
    let before ← mark "("
    let types ← caughtTypes
    let called ← orNone (do return [(← declaredVariable).inField "name"])
    let after ← mark ")"
    return k :: before :: types.inField "type" :: called ++ [after, (← R.compound).inField "body"]

/-- What happens in the end. -/
def finallyClause : Scan Node :=
  node "finally_clause" do return [← keyword "finally", (← R.compound).inField "body"]

/-- A block whose exceptions are caught. -/
def tryStatement : Scan Node :=
  node "try_statement" do
    let k ← keyword "try"
    let body ← R.compound
    return k :: body.inField "body" :: (← many (one (R.catchClause <|> R.finallyClause)))

/-! ## Functions and constants -/

/-- The label of a jump. -/
def jumpLabel : Scan Node :=
  node "named_label_statement" do
    let called ← name
    let colon ← mark ":"
    require ((← rest).head? != some ':')
    return [called, colon]

/-- A function. -/
def functionDefinition : Scan Node :=
  node "function_definition" do
    let attributes ← R.attributes
    let k ← keyword "function"
    let reference ← referenceModifier
    let called ← name
    let parameters ← R.formalParameters
    let result ← returnType
    return attributes ++ k :: reference ++ called.inField "name" :: parameters :: result
      ++ [← R.functionBody]

/-- Constants outside classes. -/
def constantDefinition : Scan Node := node "const_declaration" R.constants

/-! ## Simple statements -/

/-- A keyword with expressions after it, as many as a scan gives. -/
def keywordStatement (kind word : String) (values : Scan (List Node)) : Scan Node :=
  node kind do
    let k ← keyword word
    return k :: (← values) ++ (← terminator)

/-- The variables that are unset. -/
def unsetVariables : Scan (List Node) := do
  return (← mark "(") :: (← listed R.anyExpression) ++ [← mark ")"]

/-- A variable that keeps its value between calls. -/
def staticVariable : Scan Node :=
  node "static_variable_declaration" do
    let v ← declaredVariable
    let value ← orNone (do
      let sign ← mark "="
      return [sign, (← R.anyExpression).inField "value"])
    return v.inField "name" :: value

/-- The statement of a keyword that takes values. -/
def valueStatement (word : String) : Scan Node :=
  match word with
  | "return" => keywordStatement "return_statement" word R.optionalValue
  | "break" => keywordStatement "break_statement" word R.optionalValue
  | "continue" => keywordStatement "continue_statement" word R.optionalValue
  | "echo" => keywordStatement "echo_statement" word R.expressions
  | "goto" => keywordStatement "goto_statement" word (one name)
  | "global" =>
    keywordStatement "global_declaration" word (separated (variableName R.anyExpression))
  | "unset" => keywordStatement "unset_statement" word R.unsetVariables
  | "static" => keywordStatement "function_static_declaration" word (separated R.staticVariable)
  | _ => decline

/-- A statement that is an expression. -/
def expressionStatement : Scan Node :=
  node "expression_statement" do
    let e ← R.anyExpression
    return e :: (← terminator)

/-- A statement that does nothing. -/
def emptyStatement : Scan Node := node "empty_statement" (one (mark ";"))

/-- Words that end the statements of a control structure. -/
def endingWords : List String := ["endif", "endwhile", "endfor", "endforeach", "endswitch",
  "enddeclare", "else", "elseif", "case", "default"]

/-- A statement that reads as none of the above, up to its end. -/
def unreadStatement : Scan Node :=
  node "expression_statement" do
    upTo (· == ';') R.anyExpression
    terminator

/-- A statement that is neither a declaration nor a control structure. -/
def plainStatement : Scan Node := do
  let word ← nextWord
  require (!endingWords.contains word)
  R.valueStatement word <|> emptyStatement <|> R.expressionStatement <|> R.unreadStatement

/-- The statement that a word begins, if it begins one of its own. -/
def wordStatement (word : String) : Scan Node :=
  match word with
  | "namespace" => R.namespaceDefinition
  | "use" => imports
  | "const" => R.constantDefinition
  | "function" => R.functionDefinition
  | "if" => R.ifStatement
  | "while" => R.whileStatement
  | "for" => R.forStatement
  | "foreach" => R.foreachStatement
  | "switch" => R.switchStatement
  | "declare" => R.declareStatement
  | "do" => R.doStatement
  | "try" => R.tryStatement
  | _ => decline

/-- A statement, which may refer to statements and expressions inside it. -/
def statementStep : Scan Node := do
  skip
  R.compound <|> R.classLike <|> (do R.wordStatement (← nextWord)) <|> R.functionDefinition
    <|> jumpLabel <|> R.plainStatement

end StaticReflection.Grammar.Rules
