/-!
# Text: sequences of Unicode code points

A PHP string escape may name any code point up to `10FFFF`, a surrogate
included, so a string *value* is not always a `String`. `Text` is the list of
code points such a value consists of. Source text, names and messages stay
`String`; `Text.ofString` and `Text.toString?` go between the two, and
`Text.toString?_ofString` says that nothing is lost on the way in.
-/

namespace StaticReflection

/-- A Unicode code point, surrogates included. -/
abbrev CodePoint := Fin 0x110000

namespace CodePoint

/-- Every character is a code point. -/
def ofChar (c : Char) : CodePoint :=
  ⟨c.toNat, by
    have h : c.toNat < 0xd800 ∨ (0xdfff < c.toNat ∧ c.toNat < 0x110000) := c.valid
    omega⟩

/-- The character of a code point; a surrogate has none. -/
def toChar? (c : CodePoint) : Option Char :=
  if h : c.val.isValidChar then some (Char.ofNatAux c.val h) else none

theorem toChar?_ofChar (c : Char) : toChar? (ofChar c) = some c := by
  have h : c.toNat.isValidChar := c.valid
  have e : Char.ofNatAux c.toNat h = c := Char.ext (UInt32.toNat.inj rfl)
  show (if h : c.toNat.isValidChar then some (Char.ofNatAux c.toNat h) else none) = some c
  rw [dif_pos h, e]

end CodePoint

/-- A string value: its code points in order. -/
structure Text where
  codes : List CodePoint
  deriving DecidableEq

namespace Text

/-- The empty text. -/
def empty : Text := ⟨[]⟩

/-- The code points of a string. -/
def ofString (s : String) : Text := ⟨s.toList.map CodePoint.ofChar⟩

/-- The string with these code points, unless one of them is a surrogate. -/
def toString? (t : Text) : Option String :=
  (t.codes.mapM CodePoint.toChar?).map String.ofList

/-- The string with these code points, each surrogate replaced. -/
def display (t : Text) : String :=
  String.ofList (t.codes.map fun c => c.toChar?.getD (Char.ofNat 0xfffd))

/-- One text after the other. -/
def append (s t : Text) : Text := ⟨s.codes ++ t.codes⟩

instance : Append Text := ⟨append⟩

/-- The texts one after the other, with a separator between neighbours. -/
def join (sep : Text) : List Text → Text
  | [] => empty
  | [t] => t
  | t :: u :: rest => t ++ sep ++ join sep (u :: rest)

/-- Whether the first list precedes the second, code point by code point. -/
def codesBefore : List CodePoint → List CodePoint → Bool
  | _, [] => false
  | [], _ :: _ => true
  | a :: as, b :: bs => if a = b then codesBefore as bs else a < b

/-- Texts are ordered like dictionary words, by code point. -/
def before (s t : Text) : Bool := codesBefore s.codes t.codes

theorem mapM_toChar?_map_ofChar (cs : List Char) :
    (cs.map CodePoint.ofChar).mapM CodePoint.toChar? = some cs := by
  induction cs with
  | nil => rfl
  | cons c cs ih => simp [CodePoint.toChar?_ofChar, ih]

/-- A string is read back from its code points. -/
theorem toString?_ofString (s : String) : (ofString s).toString? = some s := by
  rw [toString?, ofString, mapM_toChar?_map_ofChar]
  simp

end Text

end StaticReflection
