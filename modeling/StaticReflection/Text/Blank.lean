/-!
# Blank characters

The Unicode white space characters together with the four ASCII separators
`1C` to `1F`. Stripping, line reading and type expressions all go by this one
class; `isBlank_of_isWhitespace` says that it holds every character the core
library calls white space.
-/

namespace StaticReflection.Blank

/-- Whether the code point is blank. -/
def isBlankCode (n : Nat) : Bool :=
  (9 ≤ n && n ≤ 13) || (0x1c ≤ n && n ≤ 0x20) || n == 0x85 || n == 0xa0 || n == 0x1680
    || (0x2000 ≤ n && n ≤ 0x200a) || n == 0x2028 || n == 0x2029 || n == 0x202f || n == 0x205f
    || n == 0x3000

/-- Whether the character is blank. -/
def isBlank (c : Char) : Bool := isBlankCode c.toNat

theorem isBlank_of_isWhitespace {c : Char} (h : c.isWhitespace = true) : isBlank c = true := by
  simp only [Char.isWhitespace, Bool.or_eq_true, decide_eq_true_eq] at h
  rcases h with ((h | h) | h) | h <;> subst h <;> rfl

/-- The characters without the blanks they begin with. -/
def dropStart (cs : List Char) : List Char := cs.dropWhile isBlank

/-- The characters without the blanks they end with. -/
def dropEnd (cs : List Char) : List Char := (cs.reverse.dropWhile isBlank).reverse

/-- The text without the blanks it begins with. -/
def stripStart (s : String) : String := String.ofList (dropStart s.toList)

/-- The text without the blanks it ends with. -/
def stripEnd (s : String) : String := String.ofList (dropEnd s.toList)

/-- The text without the blanks around it. -/
def strip (s : String) : String := String.ofList (dropEnd (dropStart s.toList))

end StaticReflection.Blank
