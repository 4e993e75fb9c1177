import StaticReflection.Value.Convert
import StaticReflection.Json.Printer

/-!
# Values as PHP literals and as JSON

`Value.literal` writes a value as a PHP expression: texts in single quotes,
arrays in brackets, the keys of a map before arrows. `Value.toJson` writes it as
JSON, with the entries of a map in the order of their keys; integer and text
keys have no common order, so a map with both has no JSON form. A value with an
integer in it that is too long to write has neither (`Value.exported`).
-/

namespace StaticReflection

namespace Text

/-- A code point between single quotes. -/
def escapeQuoted (c : CodePoint) : List CodePoint :=
  if c.val = 0x5c ∨ c.val = 0x27 then [0x5c, c] else [c]

/-- A text in single quotes, a backslash before each quote and backslash in it. -/
def singleQuoted (t : Text) : Text := ⟨0x27 :: t.codes.flatMap escapeQuoted ++ [0x27]⟩

end Text

namespace Value

/-- The PHP literal of a double. -/
def floatLiteral (x : Float) : String :=
  match Binary64.shape x with
  | .nan => "NAN"
  | .infinite negative => if negative then "-INF" else "INF"
  | .finite .. => DecimalText.ofFloat x

end Value

/-- The PHP literal of a key. -/
def Key.literal : Key → Text
  | .int n => Text.ofString (DecimalText.ofInt n)
  | .text t => t.singleQuoted

namespace Value

mutual

/-- The PHP literal of a value. -/
def literal : Value → Text
  | .null => Text.ofString "null"
  | .bool b => Text.ofString (if b then "true" else "false")
  | .int n => Text.ofString (DecimalText.ofInt n)
  | .float x => Text.ofString (floatLiteral x)
  | .constantNaN _ => Text.ofString "NAN"
  | .text t => t.singleQuoted
  | .list items =>
    Text.ofString "[" ++ Text.join (Text.ofString ", ") (literalItems items) ++ Text.ofString "]"
  | .map entries =>
    Text.ofString "[" ++ Text.join (Text.ofString ", ") (literalEntries entries)
      ++ Text.ofString "]"

/-- The literals of items. -/
def literalItems : List Value → List Text
  | [] => []
  | v :: rest => literal v :: literalItems rest

/-- The literals of entries, each key before an arrow. -/
def literalEntries : List (Key × Value) → List Text
  | [] => []
  | (k, v) :: rest => (k.literal ++ Text.ofString " => " ++ literal v) :: literalEntries rest

end

mutual

/-- Whether no integer in a value, among its keys neither, is too long to write. -/
def isShort : Value → Bool
  | .list items => itemsAreShort items
  | .map entries => entriesAreShort entries
  | v => v.isWritable

/-- Whether no integer in some items is too long to write. -/
def itemsAreShort : List Value → Bool
  | [] => true
  | v :: rest => isShort v && itemsAreShort rest

/-- Whether no integer in some entries is too long to write. -/
def entriesAreShort : List (Key × Value) → Bool
  | [] => true
  | (k, v) :: rest => k.toValue.isWritable && isShort v && entriesAreShort rest

end

/-- The PHP literal of a value that is short enough to have one. -/
def exported (v : Value) : Outcome Text :=
  if v.isShort then .ok v.literal else Outcome.fault .tooLongToWrite

/-- Whether the first key does not come after the second; an integer and a text
have no order. -/
def keyLE : Key → Key → Bool
  | .int m, .int n => m ≤ n
  | .text s, .text t => !t.before s
  | _, _ => true

/-- Whether a key is an integer. -/
def isIntKey : Key → Bool
  | .int _ => true
  | .text _ => false

/-- The name of a member for a key. -/
def keyName (k : Key) : Outcome Text :=
  if k.toValue.isWritable then .ok k.toValue.toText else Outcome.fault .tooLongToWrite

/-- Entries in the order of their keys. -/
def sortEntries {α : Type} (entries : List (Key × α)) : Outcome (List (Key × α)) :=
  if entries.any (isIntKey ·.1) && entries.any (!isIntKey ·.1) then Outcome.fault .unsortableKeys
  else .ok (entries.mergeSort fun a b => keyLE a.1 b.1)

mutual

/-- The JSON form of a value. -/
def toJson : Value → Outcome Json
  | .null => .ok .null
  | .bool b => .ok (.bool b)
  | .int n => if (Value.int n).isWritable then .ok (.int n) else Outcome.fault .tooLongToWrite
  | .float x => .ok (.float x)
  | .constantNaN _ => .ok (.float Binary64.nan)
  | .text t => .ok (.text t)
  | .list items => do return .array (← itemsToJson items)
  | .map entries => do
    -- the keys are put in order before any of them, or any value, is written
    let sorted ← sortEntries (entriesToJson entries)
    return .object (← sorted.mapM fun (k, o) => do return (← keyName k, ← o))

/-- The JSON forms of items. -/
def itemsToJson : List Value → Outcome (List Json)
  | [] => .ok []
  | v :: rest => do return (← toJson v) :: (← itemsToJson rest)

/-- The entries with the JSON forms of their values, or why they have none. -/
def entriesToJson : List (Key × Value) → List (Key × Outcome Json)
  | [] => []
  | (k, v) :: rest => (k, toJson v) :: entriesToJson rest

end

end Value

end StaticReflection
