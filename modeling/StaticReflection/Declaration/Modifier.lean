import StaticReflection.Syntax.Source
import StaticReflection.Text.LetterCase

/-!
# Modifiers

The modifiers of a property as bits, with the numbers that PHP's own reflection
gives them, and the modifiers that a declaration's syntax node carries. A
visibility for writing only, such as `private(set)`, is no visibility of the
property; without one the property is public.
-/

namespace StaticReflection

/-- Who may see a property. -/
inductive Visibility where
  | isPublic
  | isProtected
  | isPrivate
  deriving DecidableEq, Repr

namespace Visibility

/-- The bit of a visibility. -/
def flag : Visibility → Nat
  | .isPublic => 1
  | .isProtected => 2
  | .isPrivate => 4

/-- The keyword of a visibility. -/
def name : Visibility → String
  | .isPublic => "public"
  | .isProtected => "protected"
  | .isPrivate => "private"

/-- All visibilities. -/
def all : List Visibility := [.isPublic, .isProtected, .isPrivate]

/-- The visibility of a bit. -/
def ofFlag? (n : Int) : Option Visibility := all.find? fun v => (v.flag : Int) == n

/-- The visibility of a keyword. -/
def ofName? (s : String) : Option Visibility := all.find? fun v => v.name == s

theorem ofFlag?_flag (v : Visibility) : ofFlag? v.flag = some v := by cases v <;> rfl

end Visibility

namespace Modifier

/-- The bit of a static property. -/
def staticFlag : Nat := 16

/-- The bit of a readonly property. -/
def readonlyFlag : Nat := 128

/-- The modifiers by their bits, in the order in which they are named. -/
def order : List (Nat × String) :=
  Visibility.all.map (fun v => (v.flag, v.name))
    ++ [(staticFlag, "static"), (readonlyFlag, "readonly")]

/-- Whether a number has a bit, a negative one in two's complement. -/
def hasFlag (flags : Int) (flag : Nat) : Bool := (flags / flag) % 2 == 1

/-- The keywords of the modifiers whose bits a number has. -/
def names (flags : Int) : List String :=
  (order.filter fun (flag, _) => hasFlag flags flag).map (·.2)

/-- The kinds of nodes that hold a modifier other than a visibility. -/
def wordKinds : List String :=
  ["static_modifier", "readonly_modifier", "abstract_modifier", "final_modifier"]

/-- Whether a declaration has a modifier, given in lower case. -/
def has (p : ParsedSource) (n : Node) (modifier : String) : Bool :=
  n.children.any fun c =>
    wordKinds.contains c.kind && LetterCase.lower (p.text c) == modifier

/-- The visibility of a declaration. -/
def visibility (p : ParsedSource) (n : Node) : Visibility :=
  let words := (n.children.filter (·.kind == "visibility_modifier")).map fun c =>
    LetterCase.lower (p.text c)
  match words.find? fun w => !w.toList.contains '(' with
  | some w => (Visibility.ofName? w).getD .isPublic
  | none => .isPublic

end Modifier

end StaticReflection
