import StaticReflection.Decimal.Binary64

/-!
# The fewest digits that read back

`digits` gives a finite positive double as `0.d₁d₂…dₙ · 10 ^ point` with the
fewest digits that round to it again, and of those the decimal nearest to it. It
tries one digit, then two, and so on: on each grid only the two neighbours of
the number can be nearest, and both are put back through the reading of a
decimal. Seventeen digits always read back.
-/

namespace StaticReflection.Shortest

/-- The position of the decimal point before the first digit: the number lies
between the powers of ten with exponents one less than it and itself. -/
def pointOf (num den : Nat) : Int :=
  if den ≤ num then (Nat.toDigits 10 (num / den)).length
  else
    let places := (Nat.toDigits 10 (den / num)).length
    if num * Nat.pow 10 (places - 1) = den then 2 - places else 1 - places

/-- A decimal `digits · 10 ^ scale`, as a quotient. -/
def decimalRatio (digits : Nat) (scale : Int) : Nat × Nat :=
  if 0 ≤ scale then (digits * Nat.pow 10 scale.toNat, 1) else (digits, Nat.pow 10 (-scale).toNat)

/-- Whether the decimal is read as the double with these bits. -/
def readsBack (bits : UInt64) (digits : Nat) (scale : Int) : Bool :=
  let (num, den) := decimalRatio digits scale
  match Binary64.ofRatio? false num den with
  | some x => x.toBits == bits
  | none => false

/-- The decimal of `n` digits nearest to the quotient, if it reads back. -/
def atLength? (bits : UInt64) (num den : Nat) (point : Int) (n : Nat) : Option Nat :=
  let scale := point - n
  let (top, bottom) :=
    if 0 ≤ scale then (num, den * Nat.pow 10 scale.toNat)
    else (num * Nat.pow 10 (-scale).toNat, den)
  let low := top / bottom
  let rest := top % bottom
  let lowNearer := 2 * rest < bottom || (2 * rest == bottom && low % 2 == 0)
  let (first, second) := if lowNearer then (low, low + 1) else (low + 1, low)
  if readsBack bits first scale then some first
  else if readsBack bits second scale then some second
  else none

/-- The digits of the first length from `n` on, at most `fuel` longer, that read back. -/
def search (bits : UInt64) (num den : Nat) (point : Int) : Nat → Nat → Nat × Nat
  | n, 0 => (n, ((atLength? bits num den point n).getD 0))
  | n, fuel + 1 =>
    match atLength? bits num den point n with
    | some digits => (n, digits)
    | none => search bits num den point (n + 1) fuel

/-- The digits without zeros at their end. -/
def trimZeros (ds : List Char) : List Char := (ds.reverse.dropWhile (· == '0')).reverse

/-- The shortest digits of `m · 2 ^ e`, and where its decimal point stands. -/
def digits (m : Nat) (e : Int) (bits : UInt64) : List Char × Int :=
  let (num, den) := if 0 ≤ e then (m * Nat.pow 2 e.toNat, 1) else (m, Nat.pow 2 (-e).toNat)
  let point := pointOf num den
  let (n, d) := search bits num den point 1 16
  let ds := Nat.toDigits 10 d
  (trimZeros ds, point + (ds.length - n))

end StaticReflection.Shortest
