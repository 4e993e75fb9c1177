import StaticReflection.Grammar.Cursor

/-!
# Number literals

Where an operand may begin, digits are the longest literal that they can be: an
integer (decimal, octal, hexadecimal or binary) or a float (a point, an exponent
or both). An underscore may stand between two digits.
-/

namespace StaticReflection.Grammar

/-- Whether a character is a hexadecimal digit. -/
def isHexDigit (c : Char) : Bool :=
  c.isDigit || ('a' ≤ c && c ≤ 'f') || ('A' ≤ c && c ≤ 'F')

/-- The length of a run of digits with single underscores between them. -/
def digitsLength (isDigit : Char → Bool) : List Char → Nat
  | [] => 0
  | [c] => if isDigit c then 1 else 0
  | c :: d :: rest =>
    if isDigit c || (c == '_' && isDigit d) then digitsLength isDigit (d :: rest) + 1 else 0

/-- The length of a run of digits that begins with one. -/
def runLength (isDigit : Char → Bool) : List Char → Nat
  | [] => 0
  | c :: rest => if isDigit c then digitsLength isDigit (c :: rest) else 0

/-- The length of the digits after a base mark, the mark included; none if there are none. -/
def markedLength (isDigit : Char → Bool) (rest : List Char) : Nat :=
  match runLength isDigit rest with
  | 0 => 0
  | n => n + 2

/-- The length of the integer literal at the start of a text. -/
def integerLength : List Char → Nat
  | '0' :: c :: rest =>
    let plain := runLength (fun d => '0' ≤ d && d ≤ '7') ('0' :: c :: rest)
    let marked := match c.toLower with
      | 'x' => markedLength isHexDigit rest
      | 'b' => markedLength (fun d => d == '0' || d == '1') rest
      | 'o' => markedLength (fun d => '0' ≤ d && d ≤ '7') rest
      | _ => 0
    max plain marked
  | cs => runLength Char.isDigit cs

/-- The length of the exponent at the start of a text. -/
def exponentLength : List Char → Nat
  | c :: rest =>
    if c.toLower == 'e' then
      let sign := match rest with
        | '+' :: _ => 1
        | '-' :: _ => 1
        | _ => 0
      match runLength Char.isDigit (rest.drop sign) with
      | 0 => 0
      | n => n + sign + 1
    else 0
  | [] => 0

/-- The length of the float literal at the start of a text. -/
def floatLength (cs : List Char) : Nat :=
  let whole := runLength Char.isDigit cs
  let point := match cs.drop whole with
    | '.' :: rest => runLength Char.isDigit rest + 1
    | _ => 0
  let exponent := exponentLength (cs.drop (whole + point))
  if point + exponent = 0 || (whole = 0 && point < 2) then 0 else whole + point + exponent

/-- The kind and length of the number literal at the start of a text. -/
def number? (cs : List Char) : Option (String × Nat) :=
  if integerLength cs < floatLength cs then some ("float", floatLength cs)
  else if 0 < integerLength cs then some ("integer", integerLength cs)
  else none

/-- A number literal. -/
def Scan.number : Scan Node := do
  Scan.skip
  match number? (← Scan.rest) with
  | some (kind, n) => Scan.leaf kind true n
  | none => Scan.decline

end StaticReflection.Grammar
