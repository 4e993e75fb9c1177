import StaticReflection.Value.Accumulator
import StaticReflection.Value.Order

/-!
# Binary operators

Integer results that do not fit 64 bits become doubles, except quotients, which
stay whole when they come out even. `+` on two arrays is their union, in which
the entries of the left one win. Bitwise operators work on two's complement
patterns, shifts on those of 64 bits.
-/

namespace StaticReflection

/-- The binary operators on two folded operands. -/
inductive BinaryOperator where
  | add
  | subtract
  | multiply
  | divide
  | modulo
  | power
  | concat
  | bitOr
  | bitAnd
  | bitXor
  | shiftLeft
  | shiftRight
  | and
  | or
  | xor
  | equal
  | notEqual
  | identical
  | notIdentical
  | compare (comparison : Comparison)
  | spaceship
  deriving DecidableEq

namespace BinaryOperator

/-- The operator that a text in lower case spells. -/
def ofSpelling? : String → Option BinaryOperator
  | "+" => some .add
  | "-" => some .subtract
  | "*" => some .multiply
  | "/" => some .divide
  | "%" => some .modulo
  | "**" => some .power
  | "." => some .concat
  | "|" => some .bitOr
  | "&" => some .bitAnd
  | "^" => some .bitXor
  | "<<" => some .shiftLeft
  | ">>" => some .shiftRight
  | "&&" => some .and
  | "and" => some .and
  | "||" => some .or
  | "or" => some .or
  | "xor" => some .xor
  | "==" => some .equal
  | "!=" => some .notEqual
  | "<>" => some .notEqual
  | "===" => some .identical
  | "!==" => some .notIdentical
  | "<" => some (.compare .less)
  | ">" => some (.compare .greater)
  | "<=" => some (.compare .lessOrEqual)
  | ">=" => some (.compare .greaterOrEqual)
  | "<=>" => some .spaceship
  | _ => none

end BinaryOperator

namespace Value

/-- Two numbers combined: exactly if both are integers, as doubles otherwise. -/
def arithmetic (onInts : Int → Int → Int) (onFloats : Float → Float → Float) (a b : Value) :
    Outcome Value := do
  match ← a.number, ← b.number with
  | .int m, .int n => ofIntResult (onInts m n)
  | x, y => return .float (onFloats (← x.toFloat) (← y.toFloat))

/-- The entries of an array. -/
def entries : Value → List (Key × Value)
  | .list items => items.mapIdx fun i v => (.int i, v)
  | .map es => es
  | _ => []

/-- The entries of the first list, then those of the second whose keys the first lacks. -/
def unite (left right : List (Key × Value)) : List (Key × Value) :=
  left ++ right.filter fun (k, _) => (left.lookup k).isNone

/-- The union of two arrays. -/
def union (a b : Value) : Outcome Value := do
  let built ← (unite a.entries b.entries).foldlM
    (fun acc (k, v) => acc.set k.toValue v) Accumulator.empty
  return built.value

/-- The sum of two numbers, or the union of two arrays. -/
def add (a b : Value) : Outcome Value :=
  if a.isArray && b.isArray then union a b else arithmetic (· + ·) (· + ·) a b

/-- The quotient: an integer when integers divide without a remainder, a double
otherwise. -/
def divide (a b : Value) : Outcome Value := do
  let x ← a.number
  let y ← b.number
  if y.isZero then Outcome.unfoldable .divisionByZero
  else match x, y with
    | .int m, .int n =>
      if m % n = 0 then return .int (m / n)
      -- the quotient may be a double although the operands are too large for one
      else match Binary64.ofRatio? (decide (m < 0) != decide (n < 0)) m.natAbs n.natAbs with
        | some q => return .float q
        | none => Outcome.fault .quotientTooLarge
    | _, _ => return .float ((← x.toFloat) / (← y.toFloat))

/-- The remainder, with the sign of the dividend. -/
def modulo (a b : Value) : Outcome Value := do
  let m ← a.toInt
  let n ← b.toInt
  if n = 0 then Outcome.unfoldable .moduloByZero
  else return .int (Binary64.signed (decide (m < 0)) (m.natAbs % n.natAbs))

/-- Whether a double is a whole number. -/
def isWholeFloat (x : Float) : Bool :=
  match Binary64.shape x with
  | .finite _ m e => Binary64.isWhole m e
  | _ => false

/-- Whether a double is an odd whole number. -/
def isOddFloat (x : Float) : Bool :=
  match Binary64.shape x with
  | .finite negative m e =>
    Binary64.isWhole m e && (Binary64.truncate negative m e).natAbs % 2 == 1
  | _ => false

/-- The number of the constant `NAN` among the constants whose value is a NaN. -/
def nanConstant : Nat := 0

/-- A finite, nonzero base raised to a finite, nonzero exponent. A power off the
real line is a NaN, and one out of range a fault. -/
def finitePower (x y : Float) : Outcome Value :=
  -- a negative base has no real power off the whole exponents
  if x < 0 && !isWholeFloat y then
    if (x.abs.pow y).isInf then Outcome.fault .complexPowerTooLarge
    else .ok (.constantNaN nanConstant)
  else
    let size := if x.abs == 1 then 1.0 else x.abs.pow y
    if size.isInf then Outcome.fault .powerTooLarge
    else .ok (.float (if x < 0 && isOddFloat y then -size else size))

/-- A double raised to a double. -/
def floatPower (x y : Float) : Outcome Value :=
  if y == 0 then .ok (.float 1)
  else if x.isNaN then .ok (.float x)
  else if y.isNaN then .ok (.float (if x == 1 then 1 else y))
  else if y.isInf then
    .ok (.float (if x.abs == 1 then 1 else if (y > 0) == (x.abs > 1) then y.abs else 0))
  else if x.isInf then
    if y > 0 then .ok (.float (if isOddFloat y then x else x.abs))
    else .ok (.float (if isOddFloat y && x < 0 then -0.0 else 0))
  else if x == 0 then .ok (.float (if isOddFloat y then x else 0))
  else finitePower x y

/-- An integer raised to a natural number. Sizes from `2 ^ 1024` on are no
doubles either, so they need not be written out. -/
def intPower (base : Int) (exponent : Nat) : Outcome Value :=
  -- these never grow, however large the exponent
  if base.natAbs ≤ 1 then
    .ok (.int (if exponent = 0 then 1 else if base < 0 ∧ exponent % 2 = 0 then 1 else base))
  else if 1024 ≤ exponent then Outcome.fault .integerTooLarge
  else ofIntResult (Int.pow base exponent)

/-- Whether a number is below zero. -/
def Number.isNegative : Number → Bool
  | .int n => n < 0
  | .float x => x < 0

/-- The power; a zero base with a negative exponent is infinite. -/
def power (a b : Value) : Outcome Value := do
  let x ← a.number
  let y ← b.number
  if x.isZero && y.isNegative then return .float (Binary64.infinity false)
  match x, y with
  | .int m, .int n =>
    if 0 ≤ n then intPower m n.toNat else floatPower (← floatOfInt m) (← floatOfInt n)
  | _, _ => floatPower (← x.toFloat) (← y.toFloat)

/-- How many bits a two's complement pattern needs for both integers, at least 64. -/
def patternWidth (m n : Int) : Nat := max 64 (max m.natAbs.log2 n.natAbs.log2 + 2)

/-- The integer of a two's complement pattern of `width` bits. -/
def ofPattern (width : Nat) (bits : Nat) : Int := Int.bmod bits (Nat.pow 2 width)

/-- The two's complement pattern of an integer in `width` bits. -/
def toPattern (width : Nat) (n : Int) : Nat := (n % Nat.pow 2 width).toNat

/-- A bitwise operation on two's complement patterns. -/
def bitwise (f : Nat → Nat → Nat) (a b : Value) : Outcome Value := do
  let m ← a.toInt
  let n ← b.toInt
  let width := patternWidth m n
  return .int (ofPattern width (f (toPattern width m) (toPattern width n)))

/-- A pattern of 64 bits shifted left, zeros coming in. -/
def shiftLeft (a b : Value) : Outcome Value := do
  let m ← a.toInt
  let n ← b.toInt
  if n < 0 then Outcome.unfoldable .negativeShift
  else if 64 ≤ n then return .int 0
  else return .int (Int.bmod (m * Nat.pow 2 n.toNat) 0x10000000000000000)

/-- A pattern shifted right, copies of the sign coming in. -/
def shiftRight (a b : Value) : Outcome Value := do
  let m ← a.toInt
  let n ← b.toInt
  if n < 0 then Outcome.unfoldable .negativeShift
  -- from 63 bits on nothing but the sign is left
  else return .int (Int.fdiv m (Nat.pow 2 (min n 63).toNat))

/-- The texts of two values joined. -/
def concat (a b : Value) : Outcome Value :=
  if a.isWritable && b.isWritable then .ok (.text (a.toText ++ b.toText))
  else Outcome.fault .tooLongToWrite

/-- The value of an operator on two operands. -/
def apply : BinaryOperator → Value → Value → Outcome Value
  | .add, a, b => add a b
  | .subtract, a, b => arithmetic (· - ·) (· - ·) a b
  | .multiply, a, b => arithmetic (· * ·) (· * ·) a b
  | .divide, a, b => divide a b
  | .modulo, a, b => modulo a b
  | .power, a, b => power a b
  | .concat, a, b => concat a b
  | .bitOr, a, b => bitwise (· ||| ·) a b
  | .bitAnd, a, b => bitwise (· &&& ·) a b
  | .bitXor, a, b => bitwise (· ^^^ ·) a b
  | .shiftLeft, a, b => shiftLeft a b
  | .shiftRight, a, b => shiftRight a b
  | .and, a, b => .ok (.bool (a.truthy && b.truthy))
  | .or, a, b => .ok (.bool (a.truthy || b.truthy))
  | .xor, a, b => .ok (.bool (a.truthy != b.truthy))
  | .equal, a, b => .ok (.bool (eq a b))
  | .notEqual, a, b => .ok (.bool (!eq a b))
  | .identical, a, b => .ok (.bool (identical a b))
  | .notIdentical, a, b => .ok (.bool (!identical a b))
  | .compare c, a, b => do return .bool (← compareValues c a b)
  | .spaceship, a, b => do return .int (← spaceship a b)

end Value

end StaticReflection
