import StaticReflection.Decimal.Shortest

/-!
# Decimal text of numbers

Doubles are written with the fewest digits that read back: positionally when the
exponent of the first digit is at least `-4` and below `16`, always with a
fraction, and with a signed exponent of two or more digits otherwise.
-/

namespace StaticReflection.DecimalText

/-- When a number is written positionally: the first digit's exponent is in this range. -/
def positionalFrom : Int := -4

/-- The first exponent from which on a number is no longer written positionally. -/
def positionalBelow : Int := 16

/-- Digits with the decimal point after the first `point` of them. -/
def positional (ds : List Char) (point : Int) : List Char :=
  if point ≤ 0 then ['0', '.'] ++ List.replicate (-point).toNat '0' ++ ds
  else if (ds.length : Int) ≤ point then
    ds ++ List.replicate (point.toNat - ds.length) '0' ++ ['.', '0']
  else ds.take point.toNat ++ ['.'] ++ ds.drop point.toNat

/-- An exponent: its sign and at least two digits. -/
def exponentText (x : Int) : List Char :=
  let ds := Nat.toDigits 10 x.natAbs
  (if x < 0 then '-' else '+') :: (List.replicate (2 - ds.length) '0' ++ ds)

/-- Digits in scientific form, the first of them before the point. -/
def scientific (ds : List Char) (x : Int) : List Char :=
  let mantissa := match ds with
    | [] => []
    | [d] => [d]
    | d :: rest => d :: '.' :: rest
  mantissa ++ 'e' :: exponentText x

/-- The digits of a positive number, in the form its size asks for. -/
def layout (ds : List Char) (point : Int) : List Char :=
  let x := point - 1
  if positionalFrom ≤ x ∧ x < positionalBelow then positional ds point else scientific ds x

/-- The text of a double: `inf` and `nan` for those without digits. -/
def ofFloat (x : Float) : String :=
  match Binary64.shape x with
  | .nan => "nan"
  | .infinite negative => if negative then "-inf" else "inf"
  | .finite negative m e =>
    let sign := if negative then ['-'] else []
    if m = 0 then String.ofList (sign ++ ['0', '.', '0'])
    else
      let (ds, point) := Shortest.digits m e x.abs.toBits
      String.ofList (sign ++ layout ds point)

/-- The text of an integer: a minus sign if need be, and its digits. -/
def ofInt (n : Int) : String :=
  String.ofList ((if n < 0 then ['-'] else []) ++ Nat.toDigits 10 n.natAbs)

end StaticReflection.DecimalText
