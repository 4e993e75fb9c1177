import StaticReflection.Json.Basic
import StaticReflection.Decimal.Numeral

/-!
# Reading JSON

`Json.read?` reads a whole text as one JSON value. Beyond the standard it takes
`NaN`, `Infinity` and `-Infinity` as numbers; a name that an object repeats keeps
its first place and gets its last value; a pair of surrogate escapes is one code
point and a lone one stays a surrogate.
-/

namespace StaticReflection.Json

/-- Whether the character may stand between tokens. -/
def isSpacing (c : Char) : Bool := c == ' ' || c == '\t' || c == '\n' || c == '\r'

/-- The characters from the next token on. -/
def skip (cs : List Char) : List Char := cs.dropWhile isSpacing

/-- The rest after a word, if the characters begin with it. -/
def afterWord? (word : String) (cs : List Char) : Option (List Char) :=
  if word.toList.isPrefixOf cs then some (cs.drop word.length) else none

/-- The value of four hexadecimal digits and what follows them. -/
def hexUnit? : List Char → Option (Nat × List Char)
  | a :: b :: c :: d :: rest =>
    if [a, b, c, d].all (Numeral.isDigit 16) then some (Numeral.ofDigits 16 [a, b, c, d], rest)
    else none
  | _ => none

/-- The code point of a number below the last one. -/
def codePoint (n : Nat) : CodePoint := if h : n < 0x110000 then ⟨n, h⟩ else ⟨0xfffd, by decide⟩

/-- The code point that one or two unit escapes write, after the first `\u`. -/
def escapedUnits? (cs : List Char) : Option (CodePoint × List Char) :=
  match hexUnit? cs with
  | none => none
  | some (high, rest) =>
    if 0xd800 ≤ high ∧ high < 0xdc00 then
      match rest with
      | '\\' :: 'u' :: more =>
        match hexUnit? more with
        | none => none
        | some (low, after) =>
          if 0xdc00 ≤ low ∧ low < 0xe000 then
            some (codePoint (0x10000 + (high - 0xd800) * 0x400 + (low - 0xdc00)), after)
          else some (codePoint high, rest)
      | _ => some (codePoint high, rest)
    else some (codePoint high, rest)

/-- The character that a short escape writes. -/
def shortEscape? (c : Char) : Option Char :=
  if c = '"' ∨ c = '\\' ∨ c = '/' then some c
  else if c = 'b' then some (Char.ofNat 8)
  else if c = 'f' then some (Char.ofNat 12)
  else if c = 'n' then some '\n'
  else if c = 'r' then some '\r'
  else if c = 't' then some '\t'
  else none

/-- A text up to its closing quote, and what follows; `fuel` bounds the characters read. -/
def textAt? : Nat → List Char → Option (List CodePoint × List Char)
  | 0, _ => none
  | _, [] => none
  | fuel + 1, c :: rest =>
    if c = '"' then some ([], rest)
    else if c = '\\' then
      match rest with
      | [] => none
      | e :: more =>
        match (if e = 'u' then escapedUnits? more
          else (shortEscape? e).map fun d => (CodePoint.ofChar d, more)) with
        | none => none
        | some (code, after) =>
          (textAt? fuel after).map fun (codes, tail) => (code :: codes, tail)
    else if c.toNat < 32 then none
    else (textAt? fuel rest).map fun (codes, tail) => (CodePoint.ofChar c :: codes, tail)

/-- A fraction or exponent that is present: its characters and what follows. -/
def optionalPart (cs : List Char) (lead : List Char) (rest : List Char) : List Char × List Char :=
  let (ds, after) := Numeral.takeDigits rest
  if ds.isEmpty then ([], cs) else (lead ++ ds, after)

/-- The fraction at the start of the characters, if any. -/
def fractionPart (cs : List Char) : List Char × List Char :=
  match cs with
  | '.' :: rest => optionalPart cs ['.'] rest
  | _ => ([], cs)

/-- The exponent at the start of the characters, if any. -/
def exponentPart (cs : List Char) : List Char × List Char :=
  match cs with
  | c :: rest =>
    if c = 'e' ∨ c = 'E' then
      match rest with
      | '-' :: more => optionalPart cs ['e', '-'] more
      | '+' :: more => optionalPart cs ['e', '+'] more
      | _ => optionalPart cs ['e'] rest
    else ([], cs)
  | [] => ([], cs)

/-- A number: an integer if it has neither fraction nor exponent. -/
def numberAt? (cs : List Char) : Option (Json × List Char) :=
  let (negative, body) := match cs with
    | '-' :: rest => (true, rest)
    | _ => (false, cs)
  let (digits, after) := match body with
    | '0' :: rest => (['0'], rest)
    | _ => Numeral.takeDigits body
  if digits.isEmpty then none
  else
    let (fraction, after) := fractionPart after
    let (exponent, after) := exponentPart after
    if fraction.isEmpty && exponent.isEmpty then
      some (.int (Binary64.signed negative (Numeral.ofDigits 10 digits)), after)
    else (Numeral.readDecimal? negative (digits ++ fraction ++ exponent)).map
      fun x => (.float x, after)

/-- A value that is neither text, array nor object. -/
def scalarAt? (cs : List Char) : Option (Json × List Char) :=
  match afterWord? "null" cs with
  | some rest => some (.null, rest)
  | none =>
  match afterWord? "true" cs with
  | some rest => some (.bool true, rest)
  | none =>
  match afterWord? "false" cs with
  | some rest => some (.bool false, rest)
  | none =>
  match afterWord? "NaN" cs with
  | some rest => some (.float Binary64.nan, rest)
  | none =>
  match afterWord? "Infinity" cs with
  | some rest => some (.float (Binary64.infinity false), rest)
  | none =>
  match afterWord? "-Infinity" cs with
  | some rest => some (.float (Binary64.infinity true), rest)
  | none => numberAt? cs

mutual

/-- A value, and what follows it; `fuel` bounds the characters read. -/
def valueAt? : Nat → List Char → Option (Json × List Char)
  | 0, _ => none
  | fuel + 1, cs =>
    match cs with
    | '"' :: rest =>
      (textAt? (rest.length + 1) rest).map fun (codes, after) => (.text ⟨codes⟩, after)
    | '[' :: rest =>
      match skip rest with
      | ']' :: after => some (.array [], after)
      | inner => (itemsAt? fuel inner).map fun (items, after) => (.array items, after)
    | '{' :: rest =>
      match skip rest with
      | '}' :: after => some (.object [], after)
      | inner => (membersAt? fuel [] inner).map fun (members, after) => (.object members, after)
    | _ => scalarAt? cs

/-- The items of an array from one of them on, up to its closing bracket. -/
def itemsAt? : Nat → List Char → Option (List Json × List Char)
  | 0, _ => none
  | fuel + 1, cs =>
    match valueAt? fuel cs with
    | none => none
    | some (v, rest) =>
      match skip rest with
      | ',' :: more => (itemsAt? fuel (skip more)).map fun (items, after) => (v :: items, after)
      | ']' :: after => some ([v], after)
      | _ => none

/-- The members of an object from one of them on, added to those before, up to
its closing brace. -/
def membersAt? : Nat → List (Text × Json) → List Char → Option (List (Text × Json) × List Char)
  | 0, _, _ => none
  | fuel + 1, before, cs =>
    match cs with
    | '"' :: rest =>
      match textAt? (rest.length + 1) rest with
      | none => none
      | some (codes, afterName) =>
        match skip afterName with
        | ':' :: more =>
          match valueAt? fuel (skip more) with
          | none => none
          | some (v, afterValue) =>
            let members := put ⟨codes⟩ v before
            match skip afterValue with
            | ',' :: next => membersAt? fuel members (skip next)
            | '}' :: after => some (members, after)
            | _ => none
        | _ => none
    | _ => none

end

/-- The value that a text is. -/
def read? (s : String) : Option Json :=
  let cs := s.toList
  match valueAt? (2 * cs.length + 2) (skip cs) with
  | some (v, rest) => if (skip rest).isEmpty then some v else none
  | none => none

end StaticReflection.Json
