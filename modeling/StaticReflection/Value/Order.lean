import StaticReflection.Value.Convert

/-!
# Equality and order of values

Numbers compare by their exact value, booleans among them; texts compare code
point by code point; lists compare at the first items that differ, and by length
if none do. Maps are equal when they have the same entries, in whatever order,
and have no order. No other two values are equal or have an order
(`Fault.incomparable`). A NaN is neither equal to a number nor before or after it.
-/

namespace StaticReflection.Value

/-- The number that a scalar is. -/
def scalarNumber? : Value → Option Number
  | .bool b => some (.int (if b then 1 else 0))
  | .int n => some (.int n)
  | .float x => some (.float x)
  | .constantNaN _ => some (.float Binary64.nan)
  | _ => none

/-- How two doubles compare; a NaN does not. -/
def compareFloats? (x y : Float) : Option Ordering :=
  if x < y then some .lt else if y < x then some .gt else if x == y then some .eq else none

/-- How two numbers compare, by their exact values. -/
def compareNumbers? : Number → Number → Option Ordering
  | .int m, .int n => some (compare m n)
  | .float x, .int n => Binary64.compareInt? x n
  | .int m, .float y => (Binary64.compareInt? y m).map Ordering.swap
  | .float x, .float y => compareFloats? x y

/-- How two texts compare. -/
def compareTexts (s t : Text) : Ordering :=
  if s.before t then .lt else if t.before s then .gt else .eq

/-- Whether both are the NaN of one constant. -/
def sameNaN : Value → Value → Bool
  | .constantNaN c, .constantNaN d => c == d
  | _, _ => false

/-- Whether two scalars are equal. -/
def eqScalar (a b : Value) : Bool :=
  match scalarNumber? a, scalarNumber? b with
  | some x, some y => compareNumbers? x y == some .eq
  | some _, none => false
  | none, some _ => false
  | none, none =>
    match a, b with
    | .null, .null => true
    | .text s, .text t => s == t
    | _, _ => false

mutual

/-- Whether two values are equal. -/
def eq : Value → Value → Bool
  | .list xs, .list ys => eqItems xs ys
  | .map xs, .map ys => xs.length == ys.length && eqEntries xs ys
  | a, b => eqScalar a b

/-- Whether two lists of items are equal one by one. -/
def eqItems : List Value → List Value → Bool
  | [], [] => true
  | x :: xs, y :: ys => (sameNaN x y || eq x y) && eqItems xs ys
  | _, _ => false

/-- Whether each entry of the first map is one of the second. -/
def eqEntries : List (Key × Value) → List (Key × Value) → Bool
  | [], _ => true
  | (k, v) :: rest, ys =>
    (match ys.lookup k with
      | some w => sameNaN v w || eq v w
      | none => false) && eqEntries rest ys

end

/-- Whether two values are of one kind and equal. -/
def identical (a b : Value) : Bool := a.kind == b.kind && eq a b

end Value

/-- Whether a comparison holds of values in this order. -/
def Comparison.holds : Comparison → Ordering → Bool
  | .less, o => o == .lt
  | .greater, o => o == .gt
  | .lessOrEqual, o => o != .gt
  | .greaterOrEqual, o => o != .lt

namespace Value

/-- Whether a comparison holds of two scalars. -/
def compareScalars (c : Comparison) (a b : Value) : Outcome Bool :=
  match scalarNumber? a, scalarNumber? b with
  | some x, some y => .ok (((compareNumbers? x y).map c.holds).getD false)
  | _, _ =>
    match a, b with
    | .text s, .text t => .ok (c.holds (compareTexts s t))
    | _, _ => Outcome.fault (.incomparable c a.kind b.kind)

mutual

/-- Whether a comparison holds of two values. -/
def compareValues (c : Comparison) : Value → Value → Outcome Bool
  | .list xs, .list ys => compareItems c xs ys
  | a, b => compareScalars c a b

/-- Whether a comparison holds of two lists of items. -/
def compareItems (c : Comparison) : List Value → List Value → Outcome Bool
  | [], ys => .ok (c.holds (compare 0 ys.length))
  | _ :: xs, [] => .ok (c.holds (compare (xs.length + 1) 0))
  | x :: xs, y :: ys =>
    -- the first items that are not equal decide
    if sameNaN x y || eq x y then compareItems c xs ys else compareValues c x y

end

/-- The sign of the difference of two values: `-1`, `0` or `1`. -/
def spaceship (a b : Value) : Outcome Int := do
  let greater ← compareValues .greater a b
  let less ← compareValues .less a b
  return (if greater then 1 else 0) - (if less then 1 else 0)

end StaticReflection.Value
