import StaticReflection.Value.Convert
import StaticReflection.Text.LetterCase

/-!
# Literals

The values of number and string literals from their source text. An integer
literal may be decimal, hexadecimal, binary or octal, with underscores between
digits, and is a double beyond 64 bits. A single-quoted string knows two escapes;
a double-quoted one those of `escape?`, and a backslash that begins none stands
for itself. The lines of a heredoc lose as many leading characters as there are
blanks before its closing label.
-/

namespace StaticReflection.Literal

/-- The text without underscores. -/
def dropUnderscores (s : String) : String := String.ofList (s.toList.filter (· != '_'))

/-- The base that an integer literal in lower case announces, and its digits. -/
def integerParts (cs : List Char) : Nat × List Char :=
  match cs with
  | '0' :: 'x' :: rest => (16, rest)
  | '0' :: 'b' :: rest => (2, rest)
  | '0' :: 'o' :: rest => (8, rest)
  -- digits after a zero are octal, a zero alone is not
  | '0' :: c :: rest => (8, c :: rest)
  | _ => (10, cs)

/-- The value of an integer literal. -/
def integer (text : String) : Outcome Value := do
  let (base, digits) := integerParts (LetterCase.lower (dropUnderscores text)).toList
  match Numeral.readInt? base (digits.map CodePoint.ofChar) with
  | none => Outcome.fault .malformedNumber
  | some n => if intMax < n then return .float (← Value.floatOfInt n) else return .int n

/-- The value of a floating-point literal. -/
def float (text : String) : Outcome Value :=
  match Numeral.readFloat? (Text.ofString (dropUnderscores text)).codes with
  | some x => .ok (.float x)
  | none => Outcome.fault .malformedNumber

/-- The text of a single-quoted string: a backslash before a quote or a
backslash is dropped. -/
def unescapeSingle : List Char → List Char
  | [] => []
  | '\\' :: '\\' :: rest => '\\' :: unescapeSingle rest
  | '\\' :: '\'' :: rest => '\'' :: unescapeSingle rest
  | c :: rest => c :: unescapeSingle rest

/-- The character of a one-letter escape. -/
def letterEscape? (c : Char) : Option Char :=
  match c with
  | 'n' => some '\n'
  | 't' => some '\t'
  | 'r' => some '\r'
  | 'v' => some (Char.ofNat 11)
  | 'e' => some (Char.ofNat 27)
  | 'f' => some (Char.ofNat 12)
  | '\\' => some '\\'
  | '$' => some '$'
  | '"' => some '"'
  | _ => none

/-- The code point with a given number. -/
def namedCode (n : Nat) : Outcome CodePoint :=
  if h : n < 0x110000 then .ok ⟨n, h⟩
  else Outcome.fault (if n < 0x80000000 then .noSuchCodePoint else .hugeCodePoint)

/-- The code point of a byte. -/
def byteCode (n : Nat) : CodePoint := ⟨n % 256, by omega⟩

/-- The escape at the start of the characters after a backslash: its code point,
and how many of them it takes. -/
def escape? (cs : List Char) : Option (Outcome CodePoint × Nat) :=
  match cs with
  | [] => none
  | c :: rest =>
    if c = 'u' then
      match rest with
      | '{' :: more =>
        let hex := more.takeWhile (Numeral.isDigit 16)
        match more.drop hex.length with
        | '}' :: _ =>
          if hex.isEmpty then none
          else some (namedCode (Numeral.ofDigits 16 hex), hex.length + 3)
        | _ => none
      | _ => none
    else if c = 'x' then
      let hex := (rest.take 2).takeWhile (Numeral.isDigit 16)
      if hex.isEmpty then none
      else some (.ok (byteCode (Numeral.ofDigits 16 hex)), hex.length + 1)
    else if Numeral.isDigit 8 c then
      let octal := (cs.take 3).takeWhile (Numeral.isDigit 8)
      some (.ok (byteCode (Numeral.ofDigits 8 octal)), octal.length)
    else (letterEscape? c).map fun d => (.ok (CodePoint.ofChar d), 1)

/-- The code points of a double-quoted text, its first `skip` characters left out. -/
def unescapeFrom : Nat → List Char → Outcome (List CodePoint)
  | _, [] => .ok []
  | skip + 1, _ :: rest => unescapeFrom skip rest
  | 0, c :: rest =>
    if c = '\\' then
      match escape? rest with
      | some (code, used) => do
        let first ← code
        return first :: (← unescapeFrom used rest)
      -- a backslash before anything else stands for itself
      | none => do return CodePoint.ofChar c :: (← unescapeFrom 0 rest)
    else do return CodePoint.ofChar c :: (← unescapeFrom 0 rest)

/-- The text that a double-quoted text stands for. -/
def unescapeDouble (cs : List Char) : Outcome Text := do return ⟨← unescapeFrom 0 cs⟩

/-- The characters without a leading `b` or `B`. -/
def dropBinaryMark (cs : List Char) : List Char :=
  match cs with
  | c :: rest => if c = 'b' ∨ c = 'B' then rest else cs
  | [] => []

/-- The characters between the first and the last. -/
def inner (cs : List Char) : List Char := (cs.drop 1).dropLast

/-- Pieces of a text between line feeds. -/
def lines : List Char → List (List Char)
  | [] => [[]]
  | c :: rest =>
    if c = '\n' then [] :: lines rest
    else match lines rest with
      | [] => [[c]]
      | first :: more => (c :: first) :: more

/-- Lines with a line feed between neighbours. -/
def joinLines : List (List Char) → List Char
  | [] => []
  | [l] => l
  | l :: rest => l ++ '\n' :: joinLines rest

/-- The body of a heredoc or nowdoc: the lines between the first and the last,
each without as many characters as there are blanks before the closing label. -/
def heredocBody (cs : List Char) : List Char :=
  let ls := lines cs
  let indent := ((ls.getLast?.getD []).takeWhile Blank.isBlank).length
  joinLines (((ls.drop 1).dropLast).map (List.drop indent))

end StaticReflection.Literal
