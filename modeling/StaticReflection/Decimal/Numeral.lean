import StaticReflection.Text.Basic
import StaticReflection.Text.Blank
import StaticReflection.Text.WordTable
import StaticReflection.Decimal.Binary64

/-!
# Reading numbers

`readInt?` and `readFloat?` read a whole text as a number. Blanks may stand
around it, a sign before it, single underscores between its digits, and the
digits may be of any script; `inf`, `infinity` and `nan` in any case are floats.
A decimal integer may have at most `maxDigits` digits.
-/

namespace StaticReflection.Numeral

/-- The most digits that a decimal integer may have. -/
def maxDigits : Nat := 4300

/-- A code point as it counts in a number: digits of other scripts are digits,
other blanks are spaces, and nothing else beyond ASCII can stand in one. -/
def plain (n : Nat) : Char :=
  if n < 127 then Char.ofNat n
  else if Blank.isBlankCode n then ' '
  else match WordTable.digit? n with
    | some d => Char.ofNat (48 + d)
    | none => '?'

/-- Whether a character may stand around a number. -/
def isSpace (c : Char) : Bool := (9 ≤ c.toNat && c.toNat ≤ 13) || c == ' '

/-- The characters of a text as they count in a number, without surrounding blanks. -/
def trimmed (codes : List CodePoint) : List Char :=
  let cs := (codes.map fun c => plain c.val).dropWhile isSpace
  (cs.reverse.dropWhile isSpace).reverse

/-- A leading sign: whether it is a minus, and the rest. -/
def takeSign : List Char → Bool × List Char
  | '-' :: rest => (true, rest)
  | '+' :: rest => (false, rest)
  | cs => (false, cs)

/-- The value of a digit in any base up to sixteen. -/
def digitValue (c : Char) : Nat :=
  let n := c.toNat
  if 48 ≤ n ∧ n ≤ 57 then n - 48
  else if 97 ≤ n ∧ n ≤ 122 then n - 87
  else if 65 ≤ n ∧ n ≤ 90 then n - 55
  else 99

/-- Whether the character is a digit in the base. -/
def isDigit (base : Nat) (c : Char) : Bool := digitValue c < base

/-- The digits with the single underscores between them taken out; none if an
underscore stands elsewhere or something is no digit. -/
def digits? (base : Nat) : List Char → Option (List Char)
  | [] => none
  | [c] => if isDigit base c then some [c] else none
  | c :: '_' :: rest => if isDigit base c then (digits? base rest).map (c :: ·) else none
  | c :: rest => if isDigit base c then (digits? base rest).map (c :: ·) else none

/-- The number that the digits denote in the base. -/
def ofDigits (base : Nat) (ds : List Char) : Nat :=
  ds.foldl (fun n c => n * base + digitValue c) 0

/-- The letter that may follow a zero to announce the base. -/
def baseLetter? (base : Nat) : Option Char :=
  if base = 16 then some 'x' else if base = 8 then some 'o' else if base = 2 then some 'b' else none

/-- The characters after an announcement of the base, if there is one. -/
def dropBase (base : Nat) (cs : List Char) : List Char :=
  match cs, baseLetter? base with
  | '0' :: c :: rest, some letter =>
    if c.toLower = letter then (match rest with | '_' :: ds => ds | ds => ds) else cs
  | _, _ => cs

/-- The integer that a text denotes in the base. -/
def readInt? (base : Nat) (codes : List CodePoint) : Option Int :=
  let (negative, cs) := takeSign (trimmed codes)
  match digits? base (dropBase base cs) with
  | none => none
  | some ds =>
    if base = 10 ∧ maxDigits < ds.length then none
    else some (Binary64.signed negative (ofDigits base ds))

/-- The longest run of digits at the start, and the rest. -/
def takeDigits (cs : List Char) : List Char × List Char :=
  (cs.takeWhile (isDigit 10), cs.dropWhile (isDigit 10))

/-- An exponent, if there is one: its value and what follows it. -/
def takeExponent? : List Char → Option (Int × List Char)
  | c :: rest =>
    if c = 'e' ∨ c = 'E' then
      let (negative, cs) := takeSign rest
      let (ds, after) := takeDigits cs
      if ds.isEmpty then none else some (Binary64.signed negative (ofDigits 10 ds), after)
    else some (0, c :: rest)
  | [] => some (0, [])

/-- The double nearest to `digits · 10 ^ scale`; exponents beyond any double are
settled without writing the number out. -/
def scaled (negative : Bool) (ds : List Char) (scale : Int) : Float :=
  let ds := ds.dropWhile (· == '0')
  let size := (ds.length : Int) + scale
  if ds.isEmpty then Binary64.ofRatio negative 0 1
  else if 400 < size then Binary64.infinity negative
  else if size < -400 then Binary64.ofRatio negative 0 1
  else if 0 ≤ scale then Binary64.ofRatio negative (ofDigits 10 ds * Nat.pow 10 scale.toNat) 1
  else Binary64.ofRatio negative (ofDigits 10 ds) (Nat.pow 10 (-scale).toNat)

/-- An unsigned decimal: digits on at least one side of an optional point, and
an optional exponent. -/
def readDecimal? (negative : Bool) (cs : List Char) : Option Float :=
  let (whole, rest) := takeDigits cs
  let (fraction, rest) := match rest with
    | '.' :: more => takeDigits more
    | _ => ([], rest)
  if whole.isEmpty && fraction.isEmpty then none
  else match takeExponent? rest with
    | some (x, []) => some (scaled negative (whole ++ fraction) (x - fraction.length))
    | _ => none

/-- The characters without underscores; none if one does not stand between digits. -/
def dropUnderscores? (afterDigit : Bool) : List Char → Option (List Char)
  | [] => some []
  | '_' :: c :: rest =>
    if afterDigit && isDigit 10 c then (dropUnderscores? true rest).map (c :: ·) else none
  | c :: rest =>
    if c = '_' then none else (dropUnderscores? (isDigit 10 c) rest).map (c :: ·)

/-- The double that a text denotes. -/
def readFloat? (codes : List CodePoint) : Option Float :=
  match dropUnderscores? false (trimmed codes) with
  | none => none
  | some cs =>
    let (negative, cs) := takeSign cs
    let word := String.ofList (cs.map Char.toLower)
    if word = "inf" ∨ word = "infinity" then some (Binary64.infinity negative)
    else if word = "nan" then some Binary64.nan
    else readDecimal? negative cs

end StaticReflection.Numeral
