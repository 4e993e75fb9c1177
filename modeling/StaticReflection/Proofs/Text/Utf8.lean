import StaticReflection.Grammar.Cursor
import StaticReflection.Syntax.Source

/-!
# Reading what was written as UTF-8

The bytes of a text are read back as that text (`Utf8.decodeFrom_encoded`), so the text
between two offsets of a source is what stands there (`Source.slice_ofString`): offsets count
the bytes of the characters before them, as a cursor does.
-/

namespace StaticReflection

namespace Utf8

/-- The bytes of some characters. -/
def encoded (cs : List Char) : List UInt8 := cs.flatMap String.utf8EncodeChar

theorem toNat_ofNat_of_lt {n : Nat} (h : n < 256) : (UInt8.ofNat n).toNat = n := by
  rw [UInt8.toNat_ofNat']
  exact Nat.mod_eq_of_lt h

/-- A byte that leads others. -/
theorem decodeFrom_lead {b low high n : Nat} (hb : b < 256) (hbig : 0x80 ≤ b)
    (h : leading? b = some (low, high, n)) (rest : List UInt8) :
    decodeFrom none (UInt8.ofNat b :: rest)
      = decodeFrom (some ⟨leadingBits b n, n, low, high⟩) rest := by
  rw [decodeFrom, toNat_ofNat_of_lt hb, start, if_neg (by omega), h]
  rfl

/-- A byte that continues a character under way. -/
theorem decodeFrom_more {p : Pending} {b : Nat} (hb : b < 256) (hlow : p.low ≤ b)
    (hhigh : b ≤ p.high) (hdue : p.due ≠ 1) (rest : List UInt8) :
    decodeFrom (some p) (UInt8.ofNat b :: rest)
      = decodeFrom (some ⟨p.bits * 64 + (b - 0x80), p.due - 1, 0x80, 0xbf⟩) rest := by
  rw [decodeFrom, toNat_ofNat_of_lt hb, if_pos ⟨hlow, hhigh⟩, if_neg hdue]

/-- The byte that ends a character under way. -/
theorem decodeFrom_end {p : Pending} {b : Nat} (hb : b < 256) (hlow : p.low ≤ b)
    (hhigh : b ≤ p.high) (hdue : p.due = 1) (rest : List UInt8) :
    decodeFrom (some p) (UInt8.ofNat b :: rest)
      = Char.ofNat (p.bits * 64 + (b - 0x80)) :: decodeFrom none rest := by
  rw [decodeFrom, toNat_ofNat_of_lt hb, if_pos ⟨hlow, hhigh⟩, if_pos hdue]

/-- The range of the byte after the first of three. -/
theorem leading?_three {b : Nat} (hlow : 0xe0 ≤ b) (hhigh : b ≤ 0xef) :
    leading? b
      = some (if b = 0xe0 then 0xa0 else 0x80, if b = 0xed then 0x9f else 0xbf, 2) := by
  unfold leading?
  rw [if_neg (by omega)]
  by_cases h0 : b = 0xe0
  · rw [if_pos h0, if_pos h0, if_neg (by omega)]
  · rw [if_neg h0, if_neg h0]
    by_cases hd : b = 0xed
    · rw [if_pos hd, if_pos hd]
    · rw [if_neg hd, if_neg hd, if_pos (by omega)]

/-- The range of the byte after the first of four. -/
theorem leading?_four {b : Nat} (hlow : 0xf0 ≤ b) (hhigh : b ≤ 0xf4) :
    leading? b
      = some (if b = 0xf0 then 0x90 else 0x80, if b = 0xf4 then 0x8f else 0xbf, 3) := by
  unfold leading?
  rw [if_neg (by omega), if_neg (by omega), if_neg (by omega), if_neg (by omega)]
  by_cases h0 : b = 0xf0
  · rw [if_pos h0, if_pos h0, if_neg (by omega)]
  · rw [if_neg h0, if_neg h0]
    by_cases h4 : b = 0xf4
    · rw [if_neg (by omega), if_pos h4, if_pos h4]
    · rw [if_pos (by omega), if_neg h4]

/-- A character is read from its bytes. -/
theorem decodeFrom_char (c : Char) (rest : List UInt8) :
    decodeFrom none (String.utf8EncodeChar c ++ rest) = c :: decodeFrom none rest := by
  have hvalid : c.val.toNat < 0xd800 ∨ (0xdfff < c.val.toNat ∧ c.val.toNat < 0x110000) := c.valid
  have hback : Char.ofNat c.val.toNat = c := Char.ofNat_toNat c
  unfold String.utf8EncodeChar
  generalize c.val.toNat = v at hvalid hback
  simp only
  by_cases hone : v ≤ 127
  · rw [if_pos hone, List.singleton_append, decodeFrom, toNat_ofNat_of_lt (by omega), start,
      if_pos (by omega), hback]
    rfl
  rw [if_neg hone]
  by_cases htwo : v ≤ 2047
  · have hlead : leading? (v / 64 % 32 + 192) = some (0x80, 0xbf, 1) := by
      unfold leading?
      rw [if_pos (by omega)]
    have hbits : leadingBits (v / 64 % 32 + 192) 1 * 64 + (v % 64 + 128 - 0x80) = v := by
      unfold leadingBits
      rw [if_pos rfl]
      omega
    rw [if_pos htwo, List.cons_append, List.singleton_append,
      decodeFrom_lead (by omega) (by omega) hlead,
      decodeFrom_end (by omega) (by simp only; omega) (by simp only; omega) rfl, hbits, hback]
  rw [if_neg htwo]
  by_cases hthree : v ≤ 65535
  · have hlead := leading?_three (b := v / 4096 % 16 + 224) (by omega) (by omega)
    have hbits : (leadingBits (v / 4096 % 16 + 224) 2 * 64 + (v / 64 % 64 + 128 - 0x80)) * 64
        + (v % 64 + 128 - 0x80) = v := by
      unfold leadingBits
      rw [if_neg (by decide), if_pos rfl]
      omega
    rw [if_pos hthree, List.cons_append, List.cons_append, List.singleton_append,
      decodeFrom_lead (by omega) (by omega) hlead,
      decodeFrom_more (by omega) (by simp only; split <;> omega) (by simp only; split <;> omega)
        (by simp only; omega),
      decodeFrom_end (by omega) (by simp only; omega) (by simp only; omega) rfl, hbits, hback]
  rw [if_neg hthree]
  have hlead := leading?_four (b := v / 262144 % 8 + 240) (by omega) (by omega)
  have hbits : ((leadingBits (v / 262144 % 8 + 240) 3 * 64 + (v / 4096 % 64 + 128 - 0x80)) * 64
      + (v / 64 % 64 + 128 - 0x80)) * 64 + (v % 64 + 128 - 0x80) = v := by
    unfold leadingBits
    rw [if_neg (by decide), if_neg (by decide)]
    omega
  rw [List.cons_append, List.cons_append, List.cons_append, List.singleton_append,
    decodeFrom_lead (by omega) (by omega) hlead,
    decodeFrom_more (by omega) (by simp only; split <;> omega) (by simp only; split <;> omega)
      (by simp only; omega),
    decodeFrom_more (by omega) (by simp only; omega) (by simp only; omega) (by simp only; omega),
    decodeFrom_end (by omega) (by simp only; omega) (by simp only; omega) rfl, hbits, hback]

theorem decodeFrom_encoded (cs : List Char) (rest : List UInt8) :
    decodeFrom none (encoded cs ++ rest) = cs ++ decodeFrom none rest := by
  induction cs with
  | nil => rfl
  | cons c cs ih =>
    rw [encoded, List.flatMap_cons, List.append_assoc, decodeFrom_char]
    exact congrArg _ ih

/-- The text of the bytes of some characters. -/
theorem decode_encoded (cs : List Char) : decode (encoded cs) = String.ofList cs := by
  have h := decodeFrom_encoded cs []
  rw [List.append_nil, show decodeFrom none [] = [] from rfl, List.append_nil] at h
  rw [decode, h]

theorem encoded_append (cs ds : List Char) : encoded (cs ++ ds) = encoded cs ++ encoded ds :=
  List.flatMap_append

end Utf8

namespace Grammar

theorem byteLength_append (cs ds : List Char) :
    byteLength (cs ++ ds) = byteLength cs + byteLength ds := by
  have hfold (n : Nat) : ds.foldl (fun n c => n + c.utf8Size) n = n + byteLength ds := by
    unfold byteLength
    induction ds generalizing n with
    | nil => rfl
    | cons d ds ih =>
      rw [List.foldl_cons, ih, List.foldl_cons, ih (0 + d.utf8Size)]
      omega
  rw [byteLength, List.foldl_append]
  exact hfold _

theorem length_encoded (cs : List Char) : (Utf8.encoded cs).length = byteLength cs := by
  induction cs with
  | nil => rfl
  | cons c cs ih =>
    have hone : byteLength [c] = c.utf8Size := Nat.zero_add _
    rw [Utf8.encoded, List.flatMap_cons, List.length_append, String.length_utf8EncodeChar]
    rw [← List.singleton_append, byteLength_append, hone, ← ih]
    rfl

end Grammar

namespace Source

open Grammar

theorem toList_bytes_ofString (cs : List Char) :
    (Source.ofString (String.ofList cs)).bytes.toList = Utf8.encoded cs := by
  unfold Source.ofString
  rw [String.toUTF8_eq_toByteArray, String.toByteArray_ofList, List.utf8Encode,
    List.data_toByteArray]
  rfl

/-- What stands between two offsets of a text. -/
theorem slice_ofString (before mid after : List Char) :
    (Source.ofString (String.ofList (before ++ mid ++ after))).slice (byteLength before)
      (byteLength before + byteLength mid) = String.ofList mid := by
  unfold slice
  rw [Array.toList_extract, toList_bytes_ofString, List.extract_eq_take_drop]
  rw [Utf8.encoded_append, Utf8.encoded_append, ← length_encoded, ← length_encoded,
    Nat.add_sub_cancel_left, List.append_assoc, List.drop_left, List.take_left,
    Utf8.decode_encoded]

end Source

end StaticReflection
