/-!
# Lines

A line ends at a line feed, a carriage return (alone or before a line feed), a
vertical tab, a form feed, one of the separators `1C` to `1E`, a next-line
character, or a Unicode line or paragraph separator. A text that ends with a
break has no empty line after it.
-/

namespace StaticReflection.Lines

/-- Whether the character ends a line. -/
def isBreak (c : Char) : Bool :=
  let n := c.toNat
  (10 ≤ n && n ≤ 13) || (0x1c ≤ n && n ≤ 0x1e) || n == 0x85 || n == 0x2028 || n == 0x2029

/-- The lines of the rest of a text, given the line so far in reverse. -/
def splitFrom (line : List Char) : List Char → List (List Char)
  | [] => if line.isEmpty then [] else [line.reverse]
  | '\r' :: '\n' :: rest => line.reverse :: splitFrom [] rest
  | c :: rest => if isBreak c then line.reverse :: splitFrom [] rest else splitFrom (c :: line) rest

/-- The lines of a text, without their breaks. -/
def split (s : String) : List String := (splitFrom [] s.toList).map String.ofList

/-- Carriage returns, alone or before a line feed, written as line feeds. -/
def unify : List Char → List Char
  | [] => []
  | '\r' :: '\n' :: rest => '\n' :: unify rest
  | c :: rest => (if c = '\r' then '\n' else c) :: unify rest

end StaticReflection.Lines
