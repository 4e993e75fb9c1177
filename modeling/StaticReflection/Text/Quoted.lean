import StaticReflection.Text.Basic
import StaticReflection.Text.PrintableTable

/-!
# Quoted texts in messages

A text quoted in a message stands in single quotes, or in double quotes when it
holds a single quote and no double one. The quote and the backslash are written
after a backslash; tab, line feed and carriage return have their short escapes;
other characters that do not print are written by their code in two, four or
eight hexadecimal digits.
-/

namespace StaticReflection.Quoted

/-- The code in lower-case hexadecimal, at least `width` digits. -/
def hex (width n : Nat) : List Char :=
  let digits := Nat.toDigits 16 n
  List.replicate (width - digits.length) '0' ++ digits

/-- How a code point is written inside the quotes. -/
def encodeCode (quote : Char) (c : CodePoint) : List Char :=
  let n := c.val
  if n = quote.toNat then ['\\', quote]
  else if n = 0x5c then ['\\', '\\']
  else if n = 9 then ['\\', 't']
  else if n = 10 then ['\\', 'n']
  else if n = 13 then ['\\', 'r']
  else if PrintableTable.isPrintable n then [Char.ofNat n]
  else if n ≤ 0xff then ['\\', 'x'] ++ hex 2 n
  else if n ≤ 0xffff then ['\\', 'u'] ++ hex 4 n
  else ['\\', 'U'] ++ hex 8 n

/-- Double quotes are used for a text with a single quote and no double one. -/
def quoteFor (t : Text) : Char :=
  if t.codes.any (·.val == 39) && !t.codes.any (·.val == 34) then '"' else '\''

/-- The text in quotes. -/
def encode (t : Text) : String :=
  let quote := quoteFor t
  String.ofList (quote :: t.codes.flatMap (encodeCode quote) ++ [quote])

/-- A string in quotes. -/
def encodeString (s : String) : String := encode (Text.ofString s)

end StaticReflection.Quoted
