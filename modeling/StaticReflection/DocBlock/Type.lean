import StaticReflection.Text.Blank
import StaticReflection.Text.LetterCase

/-!
# Types in doc comments

A type expression is the first word of a tag's value, with the blanks in
brackets and around bars kept inside it. It is split at the bars outside
brackets. A member of the union is a scalar word, a class, or an array of one of
these for each pair of square brackets at its end; a question mark before it adds
`null`.
-/

namespace StaticReflection

/-- A type in a doc comment. -/
inductive DocType where
  | scalar (name : String)
  | arrayOf (element : DocType)
  | classReference (name : String)
  deriving DecidableEq, Repr

namespace DocType

/-- The type as it is written. -/
def toText : DocType → String
  | .scalar name => name
  | .arrayOf element => element.toText ++ "[]"
  | .classReference name => name

/-- How many pairs of square brackets a type ends with. -/
def depth : DocType → Nat
  | .arrayOf element => element.depth + 1
  | _ => 0

/-- Words that never name a class. -/
def scalarWords : List String := ["int", "float", "bool", "string", "array", "object", "mixed",
  "null", "void", "callable", "iterable", "resource", "false", "true", "scalar", "numeric", "never",
  "self", "static", "parent", "$this"]

/-- Other words for scalars. -/
def canonicalWords : List (String × String) :=
  [("integer", "int"), ("boolean", "bool"), ("double", "float")]

/-- Whether a character opens a bracket. -/
def opens (c : Char) : Bool := c == '<' || c == '(' || c == '\x7b'

/-- Whether a character closes a bracket. -/
def closes (c : Char) : Bool := c == '>' || c == ')' || c == '\x7d'

/-- The number of open brackets after a character. -/
def depthAfter (depth : Nat) (c : Char) : Nat :=
  if opens c then depth + 1 else if closes c then depth - 1 else depth

/-- The first word of a value, given the number of open brackets and whether a
bar stands just before; blanks next to a bar are left out. -/
def wordFrom (depth : Nat) (afterBar : Bool) : List Char → List Char
  | [] => []
  | c :: rest =>
    if Blank.isBlank c && depth = 0 then
      let barFollows := (Blank.dropStart rest).head? == some '|'
      if afterBar || barFollows then wordFrom 0 afterBar rest else []
    else c :: wordFrom (depthAfter depth c) (c == '|') rest

/-- The type expression that a tag's value begins with. -/
def expression (value : String) : List Char := wordFrom 0 false (Blank.strip value).toList

/-- The pieces of an expression between the bars outside brackets, given the
number of open brackets and the piece so far in reverse. -/
def piecesFrom (depth : Nat) (piece : List Char) : List Char → List (List Char)
  | [] => [piece.reverse]
  | c :: rest =>
    if c == '|' && depth = 0 then piece.reverse :: piecesFrom 0 [] rest
    else piecesFrom (depthAfter depth c) (c :: piece) rest

/-- The members of a union, without blanks around them; empty ones are left out. -/
def splitUnion (cs : List Char) : List String :=
  ((piecesFrom 0 [] cs).map fun p => Blank.strip (String.ofList p)).filter (!·.isEmpty)

/-- The members of the type that a tag's value begins with. -/
def split (value : Option String) : List String :=
  match value with
  | none => []
  | some v => splitUnion (expression v)

/-- A token without the square brackets at its end, and how many pairs they are;
its characters are in reverse. -/
def dropBrackets : Nat → List Char → List Char × Nat
  | fuel + 1, ']' :: '[' :: rest =>
    let (bare, n) := dropBrackets fuel (Blank.dropStart rest)
    (bare, n + 1)
  | _, cs => (cs, 0)

/-- The word of a token before its angle brackets or braces. -/
def baseWord (cs : List Char) : String :=
  Blank.strip (String.ofList (cs.takeWhile fun c => c != '<' && c != '\x7b'))

/-- The type of a word. -/
def ofWord (word : String) : DocType :=
  let lowered := LetterCase.lower word
  let canonical := (canonicalWords.lookup lowered).getD lowered
  if scalarWords.contains canonical then .scalar canonical else .classReference word

/-- The type of a token without square brackets. -/
def ofElement : Nat → List Char → DocType
  | fuel + 1, cs =>
    if cs.isEmpty then .scalar "mixed"
    else if cs.head? == some '(' && cs.getLast? == some ')' then
      match splitUnion (cs.drop 1).dropLast with
      | [one] => ofElement fuel one.toList
      | _ => .scalar "mixed"
    else ofWord (baseWord cs)
  | 0, cs => ofWord (baseWord cs)

/-- A type in some number of arrays. -/
def nested : Nat → DocType → DocType
  | 0, t => t
  | n + 1, t => .arrayOf (nested n t)

/-- The types of one member of a union. -/
def ofToken : Nat → List Char → List DocType
  | fuel + 1, cs =>
    match (Blank.strip (String.ofList cs)).toList with
    | '?' :: rest => ofToken fuel rest ++ [.scalar "null"]
    | token =>
      let (bare, n) := dropBrackets token.length token.reverse
      [nested n (ofElement (bare.length + 1) bare.reverse)]
  | 0, _ => []

/-- The types of one member of a union. -/
def resolve (token : String) : List DocType := ofToken (token.length + 1) token.toList

/-- The types that a tag's value begins with, in the order they are written. -/
def resolveAll (value : Option String) : List DocType := (split value).flatMap resolve

end DocType

end StaticReflection
