import StaticReflection.Failure
import StaticReflection.Decimal.Numeral

/-!
# Conversions of values

The text that the concatenation operator makes of a value, its truth, and the
number that arithmetic makes of it. A text is a number only if it reads as one
from end to end; integers outside 64 bits become doubles in results of
arithmetic (`Value.ofIntResult`), and a double is an integer for a bitwise
operator only if its whole part fits 64 bits.
-/

namespace StaticReflection

/-- The least integer of 64 bits. -/
def intMin : Int := -0x8000000000000000

/-- The greatest integer of 64 bits. -/
def intMax : Int := 0x7fffffffffffffff

/-- Whether an integer fits 64 bits. -/
def fitsInt (n : Int) : Bool := intMin ≤ n && n ≤ intMax

/-- What an evaluation step comes to. -/
abbrev Outcome (α : Type) := Except Failure α

/-- A failure because of an expression that is no constant. -/
def Outcome.unfoldable {α : Type} (reason : Unfoldable) : Outcome α := .error (.unfoldable reason)

/-- A failure because of a fault of the input. -/
def Outcome.fault {α : Type} (cause : Fault) : Outcome α := .error (.fault cause)

namespace Value

/-- The text of a double: whole ones below `10 ^ 15` without a fraction. -/
def floatText (x : Float) : String :=
  match Binary64.shape x with
  | .nan => "NAN"
  | .infinite negative => if negative then "-INF" else "INF"
  | .finite negative m e =>
    let whole := Binary64.truncate negative m e
    if Binary64.isWhole m e && whole.natAbs < 1000000000000000 then DecimalText.ofInt whole
    else DecimalText.ofFloat x

/-- The text that a value is in a concatenation. -/
def toText : Value → Text
  | .null => Text.empty
  | .bool b => if b then Text.ofString "1" else Text.empty
  | .int n => Text.ofString (DecimalText.ofInt n)
  | .float x => Text.ofString (floatText x)
  | .constantNaN _ => Text.ofString "NAN"
  | .text t => t
  | .list _ => Text.ofString "Array"
  | .map _ => Text.ofString "Array"

/-- Whether a value has a text; an integer with more than `Numeral.maxDigits` digits has none. -/
def isWritable : Value → Bool
  | .int n => n.natAbs < Nat.pow 10 Numeral.maxDigits
  | _ => true

/-- Whether a value counts as true. -/
def truthy : Value → Bool
  | .null => false
  | .bool b => b
  | .int n => n != 0
  | .float x => x != 0
  | .constantNaN _ => true
  | .text t => t != Text.empty && t != Text.ofString "0"
  | .list items => !items.isEmpty
  | .map entries => !entries.isEmpty

/-- The number that arithmetic makes of a value: an integer or a double as it
is, and an integer or a double that a text denotes. -/
def toNumber : Value → Outcome Value
  | .null => .ok (.int 0)
  | .bool b => .ok (.int (if b then 1 else 0))
  | .int n => .ok (.int n)
  | .float x => .ok (.float x)
  | .constantNaN c => .ok (.constantNaN c)
  | .text t =>
    match Numeral.readInt? 10 t.codes with
    | some n => .ok (.int n)
    | none =>
      match Numeral.readFloat? t.codes with
      | some x => .ok (.float x)
      | none => Outcome.unfoldable (.nonNumeric t)
  | .list _ => Outcome.unfoldable (.unsupportedOperand .list)
  | .map _ => Outcome.unfoldable (.unsupportedOperand .map)

/-- A number: an integer or a double. -/
inductive Number where
  | int (n : Int)
  | float (x : Float)

/-- The number that arithmetic works on. -/
def number (v : Value) : Outcome Number := do
  match ← v.toNumber with
  | .int n => .ok (.int n)
  | .float x => .ok (.float x)
  | _ => .ok (.float Binary64.nan)

/-- The integer of 64 bits that a double's whole part is, if it is one. -/
def intOfFloat? (x : Float) : Option Int :=
  match Binary64.shape x with
  | .finite negative m e =>
    let inRange : Bool :=
      if 0 ≤ e then
        let n := Binary64.signed negative m * Nat.pow 2 e.toNat
        intMin ≤ n && n ≤ intMax
      else
        let n := Binary64.signed negative m
        intMin * Nat.pow 2 (-e).toNat ≤ n && n < (intMax + 1) * Nat.pow 2 (-e).toNat
    if inRange then some (Binary64.truncate negative m e) else none
  | _ => none

/-- The integer that a bitwise operator makes of a value. -/
def toInt (v : Value) : Outcome Int := do
  match ← v.number with
  | .int n => .ok n
  | .float x =>
    match intOfFloat? x with
    | some n => .ok n
    | none => Outcome.unfoldable (.notAnInteger x)

/-- The double nearest to an integer. -/
def floatOfInt (n : Int) : Outcome Float :=
  match Binary64.ofInt? n with
  | some x => .ok x
  | none => Outcome.fault .integerTooLarge

/-- An integer as a result: a double when it does not fit 64 bits. -/
def ofIntResult (n : Int) : Outcome Value :=
  if fitsInt n then .ok (.int n) else do return .float (← floatOfInt n)

/-- A number as a double. -/
def Number.toFloat : Number → Outcome Float
  | .int n => floatOfInt n
  | .float x => .ok x

/-- Whether a number is zero. -/
def Number.isZero : Number → Bool
  | .int n => n == 0
  | .float x => x == 0

end Value

end StaticReflection
