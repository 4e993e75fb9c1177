/-!
# Double-precision numbers, exactly

A finite double is `± mantissa · 2 ^ exponent`; `shape` reads that off its bits.
`ofRatio?` goes the other way: it rounds a quotient of natural numbers to the
nearest double, a half to the even neighbour, and has no answer when the result
is out of range. Comparison with integers and truncation to an integer are done
on the exact value, so no rounding enters them.
-/

namespace StaticReflection.Binary64

/-- What the bits of a double say. -/
inductive Shape where
  | nan
  | infinite (negative : Bool)
  | finite (negative : Bool) (mantissa : Nat) (exponent : Int)
  deriving DecidableEq

/-- How many fractions there are; as a mantissa, the bit that normal doubles leave out. -/
def fractions : Nat := 0x10000000000000

/-- The value of the sign's bit. -/
def signUnit : Nat := 0x8000000000000000

/-- The shape of a double with the given sign, biased exponent and fraction. -/
def shapeOfFields (negative : Bool) (biased fraction : Nat) : Shape :=
  if biased = 2047 then (if fraction = 0 then .infinite negative else .nan)
  else if biased = 0 then .finite negative fraction (-1074)
  else .finite negative (fractions + fraction) (biased - 1075)

/-- The shape of a double. -/
def shape (x : Float) : Shape :=
  let bits := x.toBits.toNat
  shapeOfFields (bits / signUnit == 1) (bits / fractions % 2048) (bits % fractions)

/-- The double with the given sign, biased exponent and fraction. -/
def assemble (negative : Bool) (biased fraction : Nat) : Float :=
  Float.ofBits (UInt64.ofNat ((if negative then signUnit else 0) + biased * fractions + fraction))

/-- Positive or negative infinity. -/
def infinity (negative : Bool) : Float := assemble negative 2047 0

/-- The number that is none. -/
def nan : Float := assemble false 2047 (fractions / 2)

/-- The quotient rounded to a whole number, a half to the even one. -/
def roundQuotient (num den : Nat) : Nat :=
  let q := num / den
  let r := num % den
  if 2 * r < den then q
  else if den < 2 * r then q + 1
  else if q % 2 = 0 then q else q + 1

/-- The quotient in units of `2 ^ e`, rounded. -/
def roundAt (num den : Nat) (e : Int) : Nat :=
  if 0 ≤ e then roundQuotient num (den * Nat.pow 2 e.toNat)
  else roundQuotient (num * Nat.pow 2 (-e).toNat) den

/-- The exponent at which the quotient has 53 bits, not below the least one. -/
def unitExponent (num den : Nat) : Int :=
  let e : Int := Int.ofNat num.log2 - Int.ofNat den.log2 - 53
  let wide : Bool :=
    if 0 ≤ e then decide (den * Nat.pow 2 e.toNat * (2 * fractions) ≤ num)
    else decide (den * (2 * fractions) ≤ num * Nat.pow 2 (-e).toNat)
  max (if wide then e + 1 else e) (-1074)

/-- A double with mantissa `m` in units of `2 ^ e`, where `m ≤ 2 ^ 53`; out of
range there is none. -/
def ofUnits? (negative : Bool) (m : Nat) (e : Int) : Option Float :=
  if m < fractions then some (assemble negative 0 m)
  else
    let (m, e) := if m = 2 * fractions then (fractions, e + 1) else (m, e)
    let biased := (e + 1075).toNat
    if 2047 ≤ biased then none else some (assemble negative biased (m - fractions))

/-- The double nearest to a quotient, a half to the even neighbour; none when
that is out of range. -/
def ofRatio? (negative : Bool) (num den : Nat) : Option Float :=
  if num = 0 then some (assemble negative 0 0)
  else
    let e := unitExponent num den
    ofUnits? negative (roundAt num den e) e

/-- The double nearest to a quotient, infinity when that is out of range. -/
def ofRatio (negative : Bool) (num den : Nat) : Float :=
  (ofRatio? negative num den).getD (infinity negative)

/-- The double nearest to an integer; none when that is out of range. -/
def ofInt? (n : Int) : Option Float := ofRatio? (decide (n < 0)) n.natAbs 1

/-- Whether the number is neither infinite nor a NaN. -/
def isFinite (x : Float) : Bool :=
  match shape x with
  | .finite .. => true
  | _ => false

/-- Whether the number is a NaN. -/
def isNaN (x : Float) : Bool := shape x == .nan

/-- The signed mantissa. -/
def signed (negative : Bool) (m : Nat) : Int := if negative then -(m : Int) else m

/-- How a double compares with an integer; a NaN does not. -/
def compareInt? (x : Float) (n : Int) : Option Ordering :=
  match shape x with
  | .nan => none
  | .infinite negative => some (if negative then .lt else .gt)
  | .finite negative m e =>
    if 0 ≤ e then some (compare (signed negative m * Nat.pow 2 e.toNat) n)
    else some (compare (signed negative m) (n * Nat.pow 2 (-e).toNat))

/-- The whole part of a finite number, rounded towards zero. -/
def truncate (negative : Bool) (m : Nat) (e : Int) : Int :=
  signed negative (if 0 ≤ e then m * Nat.pow 2 e.toNat else m / Nat.pow 2 (-e).toNat)

/-- Whether a finite number is whole. -/
def isWhole (m : Nat) (e : Int) : Bool := 0 ≤ e || m % Nat.pow 2 (-e).toNat == 0

end StaticReflection.Binary64
