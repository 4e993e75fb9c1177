import StaticReflection.Grammar.Quotation

/-!
# Bracketed groups

Where only the extent of a stretch of code matters (arguments, bodies of
functions, statements that declare nothing), it is passed bracket by bracket.
Brackets inside quotations and comments do not count.
-/

namespace StaticReflection.Grammar

/-- Whether a character opens a group. -/
def isOpening (c : Char) : Bool := c == '(' || c == '[' || c == '\x7b'

/-- Whether a character closes a group. -/
def isClosing (c : Char) : Bool := c == ')' || c == ']' || c == '\x7d'

namespace Scan

/-- Passes a quotation, a word, or one character, given how many groups are open,
and gives how many are open then. -/
def item (expression : Scan Node) (depth : Nat) : Scan Nat :=
  (do let _ ← quotation expression; return depth)
    <|> (do
      match ← rest with
      | [] => decline
      | c :: cs =>
        if isNameStart c || c == '$' then do
          take (1 + (cs.takeWhile isNamePart).length)
          return depth
        else do
          take 1
          return if isOpening c then depth + 1 else if isClosing c then depth - 1 else depth)

/-- Passes the rest of a group with some number of open groups inside. -/
def closeGroup (expression : Scan Node) (depth : Nat) : Scan Nat := do
  require (0 < depth)
  skip
  item expression depth

/-- A group that opens with a character, as a node of a kind. -/
def group (kind : String) (opening : String) (expression : Scan Node) : Scan Node :=
  node kind do
    let _ ← mark opening
    let depth ← iterate (closeGroup expression) 1
    require (depth == 0)
    return []

/-- Passes an item outside all groups that neither ends a statement nor closes one. -/
def flat (ends : Char → Bool) (expression : Scan Node) (depth : Nat) : Scan Nat := do
  skipInside
  let cs ← rest
  if depth = 0 then do
    require (!((cs.head?.map fun c => ends c || isClosing c).getD true))
    require (cs.take 2 != ['?', '>'])
  else skip
  item expression depth

/-- Passes code up to a character outside all groups, a closing bracket or a closing tag. -/
def upTo (ends : Char → Bool) (expression : Scan Node) : Scan Unit := do
  let _ ← iterate (flat ends expression) 0
  return ()

end Scan

end StaticReflection.Grammar
