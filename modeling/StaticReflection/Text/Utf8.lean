import StaticReflection.Decimal.Text
import StaticReflection.Text.Quoted

/-!
# Reading UTF-8 that may be damaged

`decode` reads bytes as UTF-8. Where they are not, each longest piece that could
still have begun a character becomes one replacement character `FFFD`, and
reading goes on at the byte that broke it. `firstDamage?` finds the first such
piece where bytes must be UTF-8 throughout.
-/

namespace StaticReflection.Utf8

/-- What stands for a damaged piece. -/
def replacement : Char := Char.ofNat 0xfffd

/-- The range of the second byte after a leading byte, and how many bytes follow
the leading one; a byte that leads nothing has none. -/
def leading? (b : Nat) : Option (Nat × Nat × Nat) :=
  if 0xc2 ≤ b ∧ b ≤ 0xdf then some (0x80, 0xbf, 1)
  else if b = 0xe0 then some (0xa0, 0xbf, 2)
  else if b = 0xed then some (0x80, 0x9f, 2)
  else if 0xe1 ≤ b ∧ b ≤ 0xef then some (0x80, 0xbf, 2)
  else if b = 0xf0 then some (0x90, 0xbf, 3)
  else if 0xf1 ≤ b ∧ b ≤ 0xf3 then some (0x80, 0xbf, 3)
  else if b = 0xf4 then some (0x80, 0x8f, 3)
  else none

/-- The value bits of a leading byte that `n` bytes follow. -/
def leadingBits (b n : Nat) : Nat :=
  if n = 1 then b - 0xc0 else if n = 2 then b - 0xe0 else b - 0xf0

/-- A character under way: its bits so far, how many bytes are still due, and
the range of the next of them. -/
structure Pending where
  bits : Nat
  due : Nat
  low : Nat
  high : Nat

/-- A byte read with no character under way. -/
def start (b : Nat) : List Char × Option Pending :=
  if b < 0x80 then ([Char.ofNat b], none)
  else match leading? b with
    | some (low, high, n) => ([], some ⟨leadingBits b n, n, low, high⟩)
    | none => ([replacement], none)

/-- The characters of the bytes that follow a character under way, if any. -/
def decodeFrom : Option Pending → List UInt8 → List Char
  | none, [] => []
  | some _, [] => [replacement]
  | none, b :: rest =>
    let (out, next) := start b.toNat
    out ++ decodeFrom next rest
  | some p, b :: rest =>
    let n := b.toNat
    if p.low ≤ n ∧ n ≤ p.high then
      let bits := p.bits * 64 + (n - 0x80)
      if p.due = 1 then Char.ofNat bits :: decodeFrom none rest
      else decodeFrom (some ⟨bits, p.due - 1, 0x80, 0xbf⟩) rest
    else
      let (out, next) := start n
      replacement :: (out ++ decodeFrom next rest)

/-- The text of the bytes, damaged pieces replaced. -/
def decode (bytes : List UInt8) : String := String.ofList (decodeFrom none bytes)

/-! ## Damage -/

/-- Why a piece is damaged. -/
inductive Flaw where
  /-- Its first byte leads nothing. -/
  | badStart
  /-- The byte after it cannot continue it. -/
  | badContinuation
  /-- The bytes end before it does. -/
  | truncated
  deriving DecidableEq

/-- The wording of a flaw. -/
def Flaw.message : Flaw → String
  | .badStart => "invalid start byte"
  | .badContinuation => "invalid continuation byte"
  | .truncated => "unexpected end of data"

/-- A damaged piece: how many bytes are before it, its bytes, and what is wrong. -/
structure Damage where
  position : Nat
  first : UInt8
  more : List UInt8
  flaw : Flaw

/-- The first damaged piece of the bytes from a position on, where the bytes of a
character under way may precede them. -/
def damageFrom (position : Nat) : Option (Pending × UInt8 × List UInt8) → List UInt8 → Option Damage
  | none, [] => none
  | some (_, first, more), [] => some ⟨position, first, more, .truncated⟩
  | none, b :: rest =>
    if b.toNat < 0x80 then damageFrom (position + 1) none rest
    else match start b.toNat with
      | (_, some p) => damageFrom position (some (p, b, [])) rest
      | (_, none) => some ⟨position, b, [], .badStart⟩
  | some (p, first, more), b :: rest =>
    let n := b.toNat
    if p.low ≤ n ∧ n ≤ p.high then
      if p.due = 1 then damageFrom (position + more.length + 2) none rest
      else damageFrom position (some (⟨p.bits, p.due - 1, 0x80, 0xbf⟩, first, more ++ [b])) rest
    else some ⟨position, first, more, .badContinuation⟩

/-- The first damaged piece of the bytes; none if they are UTF-8 throughout. -/
def firstDamage? (bytes : List UInt8) : Option Damage := damageFrom 0 none bytes

/-- Where a damage is: its byte and position, or the positions of its bytes. -/
def Damage.extent (d : Damage) : String :=
  if d.more.isEmpty then
    "byte 0x" ++ String.ofList (Quoted.hex 2 d.first.toNat) ++ " in position "
      ++ DecimalText.ofInt d.position
  else
    "bytes in position " ++ DecimalText.ofInt d.position ++ "-"
      ++ DecimalText.ofInt (d.position + d.more.length)

/-- The wording of a damage. -/
def Damage.message (d : Damage) : String :=
  "'utf-8' codec can't decode " ++ d.extent ++ ": " ++ d.flaw.message

end StaticReflection.Utf8
