import StaticReflection.Proofs.Value.Export

/-!
# The characters of literals

A text without surrogates is that of its characters (`Text.exists_ofString`), and those of a literal
are put together as the literal is: digits, quoted and escaped characters, and parts with commas
between them (`Text.chars_join`).
-/

namespace StaticReflection

namespace Text

/-- The characters of a text, without its surrogates. -/
def chars (t : Text) : List Char := t.codes.filterMap CodePoint.toChar?

@[simp] theorem chars_append (s t : Text) : (s ++ t).chars = s.chars ++ t.chars :=
  List.filterMap_append

@[simp] theorem chars_ofString (s : String) : (ofString s).chars = s.toList := by
  unfold chars ofString
  rw [List.filterMap_map, show CodePoint.toChar? ∘ CodePoint.ofChar = some from
    funext CodePoint.toChar?_ofChar, List.filterMap_some]

theorem ofChar_of_toChar? {c : CodePoint} {x : Char} (h : c.toChar? = some x) :
    CodePoint.ofChar x = c := by
  unfold CodePoint.toChar? at h
  by_cases hc : c.val.isValidChar
  · rw [dif_pos hc] at h
    cases h
    rfl
  · rw [dif_neg hc] at h
    cases h

/-- A text without surrogates is that of a string. -/
theorem exists_ofString {t : Text} (h : t.isEncodable = true) : ∃ s, t = ofString s := by
  obtain ⟨codes⟩ := t
  unfold isEncodable at h
  have hchars : ∃ cs : List Char, codes = cs.map CodePoint.ofChar := by
    simp only at h
    induction codes with
    | nil => exact ⟨[], rfl⟩
    | cons c rest ih =>
      rw [List.all_cons, Bool.and_eq_true] at h
      obtain ⟨x, hx⟩ := Option.isSome_iff_exists.mp h.1
      obtain ⟨cs, hcs⟩ := ih h.2
      exact ⟨x :: cs, by rw [List.map_cons, ofChar_of_toChar? hx, hcs]⟩
  obtain ⟨cs, hcs⟩ := hchars
  refine ⟨String.ofList cs, ?_⟩
  unfold ofString
  rw [String.toList_ofList, hcs]

/-- Texts with commas between them. -/
theorem chars_join (t : Text) (ts : List Text) :
    (join (ofString ", ") (t :: ts)).chars
      = t.chars ++ ts.flatMap fun u => ',' :: ' ' :: u.chars := by
  induction ts generalizing t with
  | nil => rw [join, List.flatMap_nil, List.append_nil]
  | cons u rest ih =>
    rw [join, chars_append, chars_append, ih, List.flatMap_cons, chars_ofString]
    rw [List.append_assoc]
    rfl

/-- A character between single quotes. -/
def escapeChar (c : Char) : List Char := if c = '\\' ∨ c = '\'' then ['\\', c] else [c]

theorem chars_singleQuoted (s : String) :
    (ofString s).singleQuoted.chars = '\'' :: (s.toList.flatMap escapeChar ++ ['\'']) := by
  have hchar (c : Char) :
      (escapeQuoted (CodePoint.ofChar c)).filterMap CodePoint.toChar? = escapeChar c := by
    have hval (d : Char) : (CodePoint.ofChar c).val = d.toNat ↔ c = d :=
      ⟨fun h => Char.toNat_inj.mp h, fun h => by rw [h]; rfl⟩
    unfold escapeQuoted escapeChar
    have hcond : ((CodePoint.ofChar c).val = 0x5c ∨ (CodePoint.ofChar c).val = 0x27)
        ↔ c = '\\' ∨ c = '\'' := or_congr (hval '\\') (hval '\'')
    have hback := CodePoint.toChar?_ofChar c
    by_cases hc : c = '\\' ∨ c = '\''
    · rw [if_pos hc, if_pos (hcond.mpr hc), List.filterMap_cons, List.filterMap_cons, hback]
      rfl
    · rw [if_neg hc, if_neg fun h => hc (hcond.mp h), List.filterMap_cons, hback]
      rfl
  have hchars : (fun c => (escapeQuoted (CodePoint.ofChar c)).filterMap CodePoint.toChar?)
      = escapeChar := funext hchar
  unfold singleQuoted chars ofString
  rw [List.filterMap_append, List.filterMap_cons, List.filterMap_flatMap, List.flatMap_map, hchars]
  rfl

end Text

namespace Value

theorem literalItems_eq (items : List Value) : literalItems items = items.map literal := by
  induction items with
  | nil => rfl
  | cons v rest ih => rw [literalItems, ih, List.map_cons]

/-- An entry of a map before a comma. -/
def entryLiteral (e : Key × Value) : Text := e.1.literal ++ Text.ofString " => " ++ e.2.literal

theorem literalEntries_eq (entries : List (Key × Value)) :
    literalEntries entries = entries.map entryLiteral := by
  induction entries with
  | nil => rfl
  | cons e rest ih => rw [literalEntries, ih, List.map_cons, entryLiteral]

/-- The characters of parts in brackets, with commas between them. -/
def bracketed : List Text → List Char
  | [] => ['[', ']']
  | t :: ts => '[' :: (t.chars ++ ts.flatMap (fun u => ',' :: ' ' :: u.chars) ++ [']'])

theorem chars_brackets (ts : List Text) :
    (Text.ofString "[" ++ Text.join (Text.ofString ", ") ts ++ Text.ofString "]").chars
      = bracketed ts := by
  rw [Text.chars_append, Text.chars_append, Text.chars_ofString, Text.chars_ofString]
  cases ts with
  | nil => rfl
  | cons t ts =>
    rw [Text.chars_join]
    rfl

theorem chars_list (items : List Value) :
    (Value.list items).literal.chars = bracketed (items.map literal) := by
  rw [literal, literalItems_eq, chars_brackets]

theorem chars_map (entries : List (Key × Value)) :
    (Value.map entries).literal.chars = bracketed (entries.map entryLiteral) := by
  rw [literal, literalEntries_eq, chars_brackets]

theorem chars_int (n : Int) :
    (Value.int n).literal.chars
      = (if n < 0 then ['-'] else []) ++ Nat.toDigits 10 n.natAbs := by
  rw [literal, Text.chars_ofString, DecimalText.ofInt, String.toList_ofList]

end Value

end StaticReflection
