import StaticReflection.Grammar.Cursor

/-!
# Quoted texts

Single-quoted strings, double-quoted strings, heredocs, nowdocs and shell
commands. Their parts are stretches of plain text, escape sequences and what is
interpolated: a variable with at most one index or member after it, an expression
in braces, or a dynamic variable name. A dollar sign or a brace that begins none of
these is plain, and so is a backslash that begins no escape sequence.

The rules take the scan for an expression in braces as a parameter.
-/

namespace StaticReflection.Grammar

/-- The grave accent, which encloses shell commands. -/
def graveAccent : Char := Char.ofNat 96

namespace Scan

/-- Reads one character that fits. -/
def char (p : Char → Bool) : Scan Unit := do
  match ← rest with
  | c :: _ => do require (p c); take 1
  | [] => decline

/-- Reads some characters exactly. -/
def exactly (spelling : String) : Scan Unit := do
  require (spelling.toList.isPrefixOf (← rest))
  take spelling.length

/-- A name right here, with nothing before it. -/
def nameHere : Scan Node := do
  match ← word? with
  | some w => leaf "name" true w.length
  | none => decline

/-- A sign right here, with nothing before it. -/
def signHere (c : Char) : Scan Node := do
  require ((← rest).head? == some c)
  leaf (String.singleton c) false 1

/-- A variable right here: a dollar sign and a name. -/
def variableHere : Scan Node := do
  let dollar ← signHere '$'
  nodeFrom "variable_name" dollar.start [dollar, ← nameHere]

/-- Reads the index of a variable inside a string. -/
def plainIndex : Scan Unit := do
  exactly "["
  let cs ← rest
  let inner := cs.takeWhile fun c => isNamePart c || c == '$' || c == '-'
  require (!inner.isEmpty)
  take inner.length
  exactly "]"

/-- Reads the member of a variable inside a string. -/
def plainMember : Scan Unit := do
  exactly "->"
  let _ ← nameHere

/-- A variable inside a string, with at most one index or member. -/
def plainVariable : Scan Node := fun c =>
  (do
    let v ← variableHere
    (do plainIndex; nodeFrom "subscript_expression" c.offset [v])
      <|> (do plainMember; nodeFrom "member_access_expression" c.offset [v])
      <|> pure v) c

/-- An expression in braces inside a string. -/
def bracedExpression (expression : Scan Node) : Scan (List Node) := do
  require ((← rest).take 2 == ['{', '$'])
  return [← signHere '{', ← expression, ← mark "\x7d"]

/-- A dynamic variable name inside a string, its braces included. -/
def bracedName (expression : Scan Node) : Scan Node := do
  require ((← rest).take 2 == ['$', '{'])
  node "dynamic_variable_name" do
    return [← mark "$\x7b", ← expression, ← mark "\x7d"]

/-- What is interpolated right here. -/
def interpolation (expression : Scan Node) : Scan (List Node) :=
  bracedExpression expression <|> one (bracedName expression <|> plainVariable)

/-! ## Plain text and escape sequences -/

/-- A plain character. -/
def plain (p : Char → Bool) : Scan (List Node) := do
  require (((← rest).head?.map p).getD false)
  one (leaf "string_content" true 1)

/-- How many characters after a backslash make a single-quoted escape sequence; none
if it begins no escape sequence. -/
def singleEscape : List Char → Nat
  | c :: _ => if c == '\\' || c == '\'' then 1 else 0
  | [] => 0

/-- Whether a character is a digit to a base of at most sixteen. -/
def isDigitOf (base : Nat) (c : Char) : Bool :=
  (c.isDigit && c.toNat - '0'.toNat < base)
    || (base == 16 && ['a', 'b', 'c', 'd', 'e', 'f'].contains c.toLower)

/-- How many characters after a backslash make a double-quoted escape sequence; none
if it begins no escape sequence. -/
def doubleEscape : List Char → Nat
  | 'x' :: rest =>
    let digits := (rest.takeWhile (isDigitOf 16)).length
    if digits = 0 then 0 else 1 + min digits 2
  | 'u' :: '{' :: rest =>
    let digits := (rest.takeWhile (isDigitOf 16)).length
    if digits = 0 || (rest.drop digits).head? != some '}' then 0 else digits + 3
  | c :: rest =>
    if ['n', 'r', 't', 'v', 'e', 'f', '\\', '$', '"', graveAccent].contains c then 1
    else min ((c :: rest).takeWhile (isDigitOf 8)).length 3
  | [] => 0

/-- A backslash and the escape sequence it begins; otherwise the character after it,
which then ends no quotation and begins no interpolation. -/
def escaped (length : List Char → Nat) (p : Char → Bool) : Scan (List Node) := do
  match ← rest with
  | '\\' :: after => do
    require ((after.head?.map p).getD false)
    match length after with
    | 0 => one (leaf "string_content" true 2)
    | n => one (leaf "escape_sequence" true (n + 1))
  | _ => decline

/-- A part before others, as one with the next if both are plain and adjoin. -/
def joinNext (part : Node) : List Node → List Node
  | next :: more =>
    if part.kind == "string_content" && next.kind == "string_content" && part.stop == next.start
    then { part with stop := next.stop } :: more
    else part :: next :: more
  | [] => [part]

/-- Parts in which plain ones that adjoin are one. -/
def joined (parts : List Node) : List Node := parts.foldr joinNext []

/-! ## Quotations -/

/-- A quotation's opening character, which a mark of a binary string may precede. -/
def openingQuote (quote : Char) : Scan (List Node) :=
  (do char (fun c => c == 'b' || c == 'B'); char (· == quote); return [])
    <|> one (signHere quote)

/-- The parts of a quotation up to its closing character. -/
def closedBy (quote : Char) (part : Scan (List Node)) : Scan (List Node) := do
  let parts ← many (part <|> plain (· != quote))
  return joined parts ++ [← signHere quote]

/-- A single-quoted string. -/
def singleQuoted : Scan Node :=
  node "string" do
    return (← openingQuote '\'') ++ (← closedBy '\'' (escaped singleEscape fun _ => true))

/-- A part of a quotation that interpolates, up to its closing character. -/
def interpolatingPart (expression : Scan Node) : Scan (List Node) :=
  escaped doubleEscape (fun _ => true) <|> interpolation expression

/-- A double-quoted string. -/
def doubleQuoted (expression : Scan Node) : Scan Node :=
  node "encapsed_string" do
    return (← openingQuote '"') ++ (← closedBy '"' (interpolatingPart expression))

/-- A shell command. -/
def shellCommand (expression : Scan Node) : Scan Node :=
  node "shell_command_expression" do
    let before ← signHere graveAccent
    return before :: (← closedBy graveAccent (interpolatingPart expression))

/-! ## Heredocs -/

/-- The length of the line break and the closing label that follow, if they do. -/
def closingLength? (label : List Char) (cs : List Char) : Option Nat :=
  let skipBreak := match cs with
    | '\r' :: '\n' :: _ => 2
    | '\n' :: _ => 1
    | _ => 0
  if skipBreak = 0 then none
  else
    let line := cs.drop skipBreak
    let blanks := (line.takeWhile fun c => c == ' ' || c == '\t').length
    let found := line.drop blanks
    if label.isPrefixOf found && !((found.drop label.length).head?.map isNamePart).getD false then
      some (skipBreak + blanks + label.length)
    else none

/-- A part of a heredoc's text, which ends before the closing label. -/
def heredocPart (expression : Scan Node) : Scan (List Node) :=
  escaped doubleEscape (fun c => c != '\n' && c != '\r') <|> interpolation expression
    <|> plain fun _ => true

/-- The line break and the blanks before the closing label, and the label. -/
def closingLabel (label : List Char) : Scan Node := do
  match closingLength? label (← rest) with
  | some n => do
    take (n - label.length)
    return (← leaf "heredoc_end" true label.length).inField "end_tag"
  | none => decline

/-- A form of heredoc: the kind of the node and of its text, the character around
the label, and the parts of the text. -/
structure HeredocForm where
  kind : String
  bodyKind : String
  quote : Option Char
  part : Scan (List Node)

namespace HeredocForm

variable (form : HeredocForm)

/-- The character around the label, if there is one. -/
def quoteSign : Scan (List Node) :=
  match form.quote with
  | some q => one (signHere q)
  | none => return []

/-- The text up to the closing label. -/
def body (label : List Char) : Scan (List Node) := do
  let start ← last
  let parts ← many do
    require ((closingLength? label (← rest)).isNone)
    form.part
  if parts.isEmpty then return []
  return [(← nodeFrom form.bodyKind start (joined parts)).inField "value"]

/-- The whole, from the opening to the closing label. -/
def scan : Scan Node :=
  node form.kind do
    let _ ← maybe (char fun c => c == 'b' || c == 'B')
    let before ← mark "<<<"
    let blanks := (← rest).takeWhile fun c => c == ' ' || c == '\t'
    take blanks.length
    let quoteBefore ← form.quoteSign
    let label := ((← word?).getD "").toList
    require (!label.isEmpty)
    let called ← leaf "heredoc_start" true label.length
    let quoteAfter ← form.quoteSign
    let text ← form.body label
    return before :: quoteBefore ++ called.inField "identifier" :: quoteAfter ++ text
      ++ [← closingLabel label]

end HeredocForm

/-- A heredoc or nowdoc. -/
def heredoc (expression : Scan Node) : Scan Node :=
  let part := heredocPart expression
  HeredocForm.scan ⟨"heredoc", "heredoc_body", none, part⟩
    <|> HeredocForm.scan ⟨"heredoc", "heredoc_body", some '"', part⟩
    <|> HeredocForm.scan ⟨"nowdoc", "nowdoc_body", some '\'', plain fun _ => true⟩

/-- Any quotation. -/
def quotation (expression : Scan Node) : Scan Node := do
  skip
  singleQuoted <|> doubleQuoted expression <|> heredoc expression <|> shellCommand expression

end Scan

end StaticReflection.Grammar
