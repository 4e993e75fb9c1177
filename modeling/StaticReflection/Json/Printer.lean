import StaticReflection.Json.Basic
import StaticReflection.Text.Quoted
import StaticReflection.Decimal.Text

/-!
# Writing JSON

One item or member to a line, two more spaces for each level, and nothing but
ASCII: every other code point is written as one or two units of UTF-16.
-/

namespace StaticReflection.Json

/-- A unit of UTF-16 as an escape. -/
def escapeUnit (n : Nat) : List Char := ['\\', 'u'] ++ Quoted.hex 4 n

/-- A code point inside a quoted text. -/
def escapeCode (c : CodePoint) : List Char :=
  let n := c.val
  if n = 0x22 then ['\\', '"']
  else if n = 0x5c then ['\\', '\\']
  else if n = 10 then ['\\', 'n']
  else if n = 13 then ['\\', 'r']
  else if n = 9 then ['\\', 't']
  else if n = 12 then ['\\', 'f']
  else if n = 8 then ['\\', 'b']
  else if 32 ≤ n ∧ n < 127 then [Char.ofNat n]
  else if n < 0x10000 then escapeUnit n
  else escapeUnit (0xd800 + (n - 0x10000) / 0x400) ++ escapeUnit (0xdc00 + (n - 0x10000) % 0x400)

/-- A text in double quotes. -/
def quote (t : Text) : String :=
  String.ofList ('"' :: t.codes.flatMap escapeCode ++ ['"'])

/-- The text of a double; those without digits have names. -/
def floatText (x : Float) : String :=
  match Binary64.shape x with
  | .nan => "NaN"
  | .infinite negative => if negative then "-Infinity" else "Infinity"
  | .finite .. => DecimalText.ofFloat x

/-- A line break and the blanks before an item at this level. -/
def lineStart (level : Nat) : String := "\n" ++ String.ofList (List.replicate (2 * level) ' ')

mutual

/-- The text of a value whose items stand one level below `level`. -/
def renderAt (level : Nat) : Json → String
  | .null => "null"
  | .bool b => if b then "true" else "false"
  | .int n => DecimalText.ofInt n
  | .float x => floatText x
  | .text t => quote t
  | .array [] => "[]"
  | .array items => "[" ++ renderItems (level + 1) items ++ lineStart level ++ "]"
  | .object [] => "\x7b\x7d"
  | .object members => "\x7b" ++ renderMembers (level + 1) members ++ lineStart level ++ "\x7d"

/-- The text of the items of an array, each on its line. -/
def renderItems (level : Nat) : List Json → String
  | [] => ""
  | [v] => lineStart level ++ renderAt level v
  | v :: rest => lineStart level ++ renderAt level v ++ "," ++ renderItems level rest

/-- The text of the members of an object, each on its line. -/
def renderMembers (level : Nat) : List (Text × Json) → String
  | [] => ""
  | [(n, v)] => lineStart level ++ quote n ++ ": " ++ renderAt level v
  | (n, v) :: rest =>
    lineStart level ++ quote n ++ ": " ++ renderAt level v ++ "," ++ renderMembers level rest

end

/-- The text of a value. -/
def render (v : Json) : String := renderAt 0 v

end StaticReflection.Json
