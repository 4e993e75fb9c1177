import StaticReflection.Text.Basic

/-!
# Folded values

What a constant expression folds to: null, a boolean, an integer of any size, a
double, a text, a list, or an ordered map with integer and text keys. A list is
an array whose keys are `0, 1, 2, …` in this order; every other array is a map.

A NaN equals nothing, with one exception: inside arrays a NaN read twice from
the same named constant is the same element. `constantNaN` is such a NaN, its
number telling the constants apart; a NaN that was computed is a `float`.
-/

namespace StaticReflection

/-- A key of an array. -/
inductive Key where
  | int (n : Int)
  | text (t : Text)
  deriving DecidableEq

/-- A value of a constant expression. -/
inductive Value where
  | null
  | bool (b : Bool)
  | int (n : Int)
  | float (x : Float)
  | constantNaN (constant : Nat)
  | text (t : Text)
  | list (items : List Value)
  | map (entries : List (Key × Value))

instance : Inhabited Value := ⟨.null⟩

namespace Value

/-- The text of a string. -/
def ofString (s : String) : Value := .text (Text.ofString s)

/-- The kinds of values, as messages name them. -/
inductive Kind where
  | null
  | bool
  | int
  | float
  | text
  | list
  | map
  deriving DecidableEq

/-- The name of a kind of values in messages. -/
def Kind.name : Kind → String
  | .null => "NoneType"
  | .bool => "bool"
  | .int => "int"
  | .float => "float"
  | .text => "str"
  | .list => "list"
  | .map => "dict"

/-- The kind of a value. -/
def kind : Value → Kind
  | .null => .null
  | .bool _ => .bool
  | .int _ => .int
  | .float _ => .float
  | .constantNaN _ => .float
  | .text _ => .text
  | .list _ => .list
  | .map _ => .map

/-- Whether the value is null. -/
def isNull : Value → Bool
  | .null => true
  | _ => false

/-- Whether the value is an array. -/
def isArray : Value → Bool
  | .list _ => true
  | .map _ => true
  | _ => false

end Value

/-- The value that a key is. -/
def Key.toValue : Key → Value
  | .int n => .int n
  | .text t => .text t

end StaticReflection
