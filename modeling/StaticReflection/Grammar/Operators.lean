import StaticReflection.Grammar.Cursor

/-!
# Operators and how tightly they bind

The binary operators of PHP with their levels, a tighter operator having a
higher one, and the operators of assignment. Of the spellings that fit at a
place the longest is meant.
-/

namespace StaticReflection.Grammar

/-- A binary operator: its spelling, its level, and whether it groups to the right. -/
structure BinaryRule where
  spelling : String
  level : Nat
  toRight : Bool

/-- The level of the conditional operator. -/
def conditionalLevel : Nat := 5

/-- The level of the value that is assigned. -/
def assignedLevel : Nat := 4

/-- The level of the operand of a unary operator. -/
def unaryLevel : Nat := 20

/-- The level of what binds tighter than every binary operator. -/
def operandLevel : Nat := 22

/-- The binary operators that are words. -/
def wordRules : List BinaryRule := [
  ⟨"or", 1, false⟩, ⟨"xor", 2, false⟩, ⟨"and", 3, false⟩, ⟨"instanceof", 21, false⟩]

/-- The binary operators that are signs, longer ones first. -/
def signRules : List BinaryRule := [
  ⟨"===", 12, false⟩, ⟨"!==", 12, false⟩, ⟨"<=>", 12, false⟩,
  ⟨"==", 12, false⟩, ⟨"!=", 12, false⟩, ⟨"<>", 12, false⟩, ⟨"<=", 13, false⟩, ⟨">=", 13, false⟩,
  ⟨"&&", 8, false⟩, ⟨"||", 7, false⟩, ⟨"??", 6, true⟩, ⟨"|>", 14, false⟩, ⟨"<<", 16, false⟩,
  ⟨">>", 16, false⟩, ⟨"**", 19, true⟩,
  ⟨"|", 9, false⟩, ⟨"^", 10, false⟩, ⟨"&", 11, false⟩, ⟨"<", 13, false⟩, ⟨">", 13, false⟩,
  ⟨".", 15, false⟩, ⟨"+", 17, false⟩, ⟨"-", 17, false⟩, ⟨"*", 18, false⟩, ⟨"/", 18, false⟩,
  ⟨"%", 18, false⟩]

/-- Spellings of assignment with an operator. -/
def augmentedSpellings : List String :=
  ["**=", "<<=", ">>=", "??=", ".=", "+=", "-=", "*=", "/=", "%=", "&=", "|=", "^="]

/-- Whether a text begins with a spelling. -/
def startsWith (cs : List Char) (spelling : String) : Bool := spelling.toList.isPrefixOf cs

/-- The sign of a binary operator at the start of a text. -/
def signRule? (cs : List Char) : Option BinaryRule :=
  if augmentedSpellings.any (startsWith cs) then none
  else signRules.find? fun r => startsWith cs r.spelling

/-- The binary operator that comes next. -/
def Scan.binaryRule : Scan BinaryRule := do
  let w ← Scan.nextWord
  let here ← Scan.rest
  match (if w.isEmpty then signRule? here else wordRules.find? fun r => r.spelling == w) with
  | some r => pure r
  | none => Scan.decline

/-- The level that the right operand of a binary operator must have. -/
def BinaryRule.rightLevel (r : BinaryRule) : Nat :=
  if r.spelling == "instanceof" then operandLevel
  else if r.toRight then r.level else r.level + 1

end StaticReflection.Grammar
