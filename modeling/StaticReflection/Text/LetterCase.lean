import StaticReflection.Text.CaseTable

/-!
# Letter case

Full Unicode lower and upper case of a text. A capital dotted I becomes two
characters; a capital sigma becomes a final one at the end of a word, and an
ordinary one elsewhere; all other capitals map one to one. `lower_ascii` says
that on ASCII the mapping is the core library's.
-/

namespace StaticReflection.LetterCase

open CaseTable

/-- Lower case of a character that is not a sigma, as one or two characters. -/
def lowerChar (c : Char) : List Char :=
  if c.toNat < 128 then [c.toLower]
  else if c.toNat = 0x130 then ['i', Char.ofNat 0x307]
  else [Char.ofNat (mapRuns lowerRuns c.toNat)]

/-- Whether the nearest character that is not passed over has a case. -/
def meetsCased : List Char → Bool
  | [] => false
  | c :: rest =>
    if inRanges ignorableRanges c.toNat then meetsCased rest else inRanges casedRanges c.toNat

/-- Lower case of the rest of a text, given what stands before it in reverse. -/
def lowerFrom (before : List Char) : List Char → List Char
  | [] => []
  | c :: rest =>
    let small :=
      if c.toNat = 0x3a3 then
        [Char.ofNat (if meetsCased before && !meetsCased rest then 0x3c2 else 0x3c3)]
      else lowerChar c
    small ++ lowerFrom (c :: before) rest

/-- The text in lower case. -/
def lower (s : String) : String := String.ofList (lowerFrom [] s.toList)

/-- Upper case of a character: up to three characters. -/
def upperChar (c : Char) : List Char :=
  if c.toNat < 128 then [c.toUpper]
  else match upperSpecial.find? fun (n, _) => n == c.toNat with
    | some (_, codes) => codes.map Char.ofNat
    | none => [Char.ofNat (mapRuns upperRuns c.toNat)]

/-- The text in upper case. -/
def upper (s : String) : String := String.ofList (s.toList.flatMap upperChar)

/-- Whether two texts are the same but for the case of their letters. -/
def same (s t : String) : Bool := lower s == lower t

theorem lowerFrom_ascii {before cs : List Char} (h : ∀ c ∈ cs, c.toNat < 128) :
    lowerFrom before cs = cs.map Char.toLower := by
  induction cs generalizing before with
  | nil => rfl
  | cons c cs ih =>
    have hc : c.toNat < 128 := h c List.mem_cons_self
    have hs : c.toNat ≠ 0x3a3 := by omega
    simp [lowerFrom, hs, lowerChar, hc, ih fun d hd => h d (List.mem_cons_of_mem _ hd)]

/-- On ASCII text, lower case is taken letter by letter. -/
theorem lower_ascii {s : String} (h : ∀ c ∈ s.toList, c.toNat < 128) :
    lower s = String.ofList (s.toList.map Char.toLower) := by
  rw [lower, lowerFrom_ascii h]

end StaticReflection.LetterCase
