import StaticReflection.Value.Convert

/-!
# Building arrays

An `Accumulator` takes elements one by one, with and without keys, and gives the
array they make. An element without a key gets the next index; a key that is the
decimal text of an integer of 64 bits is that integer; an element with a key
already present replaces the value there and keeps its place.

`Accumulator.value` is a list exactly when the keys in order are `0, 1, 2, …`.
-/

namespace StaticReflection

namespace Key

/-- Whether the code point is a decimal digit of ASCII. -/
def isDigitCode (c : CodePoint) : Bool := 48 ≤ c.val && c.val ≤ 57

/-- Whether the digits are those of a number without leading zeros. -/
def isPlainDigits : List CodePoint → Bool
  | [] => false
  | [c] => isDigitCode c
  | c :: rest => isDigitCode c && c.val != 48 && rest.all isDigitCode

/-- Whether the text has the form of an integer: an optional minus sign and
digits without leading zeros. -/
def isIntegerText (codes : List CodePoint) : Bool :=
  match codes with
  | c :: rest => if c.val = 45 then isPlainDigits rest else isPlainDigits codes
  | [] => false

/-- The key that a text is: an integer if it is the text of one of 64 bits. -/
def ofText (t : Text) : Outcome Key :=
  if isIntegerText t.codes then
    match Numeral.readInt? 10 t.codes with
    | some n => .ok (if fitsInt n then .int n else .text t)
    | none => Outcome.fault (.tooManyDigits (t.codes.filter isDigitCode).length)
  else .ok (.text t)

/-- The key that a double is: its whole part. -/
def ofFloat (x : Float) : Outcome Key :=
  match Binary64.shape x with
  | .nan => Outcome.fault .nanKey
  | .infinite _ => Outcome.fault .infiniteKey
  | .finite negative m e => .ok (.int (Binary64.truncate negative m e))

/-- The key that a value is. -/
def ofValue : Value → Outcome Key
  | .null => .ok (.text Text.empty)
  | .bool b => .ok (.int (if b then 1 else 0))
  | .int n => .ok (.int n)
  | .float x => ofFloat x
  | .constantNaN _ => Outcome.fault .nanKey
  | .text t => ofText t
  | .list _ => Outcome.unfoldable (.illegalKey .list)
  | .map _ => Outcome.unfoldable (.illegalKey .map)

end Key

/-- An array under construction: its entries in order, no key twice, and the
next index. -/
structure Accumulator where
  entries : List (Key × Value)
  next : Int

namespace Accumulator

/-- An array with no elements yet. -/
def empty : Accumulator := ⟨[], 0⟩

/-- The entries with the value at the key replaced, or put at the end. -/
def put (key : Key) (value : Value) : List (Key × Value) → List (Key × Value)
  | [] => [(key, value)]
  | (k, v) :: rest => if k = key then (k, value) :: rest else (k, v) :: put key value rest

/-- The array with an element at the next index. -/
def append (a : Accumulator) (value : Value) : Accumulator :=
  ⟨put (.int a.next) value a.entries, a.next + 1⟩

/-- The next index once the key is present. -/
def nextAfter (next : Int) : Key → Int
  | .int n => if next ≤ n then n + 1 else next
  | .text _ => next

/-- The array with an element at a key. -/
def insert (a : Accumulator) (key : Key) (value : Value) : Accumulator :=
  ⟨put key value a.entries, nextAfter a.next key⟩

/-- The array with an element at the key that a value is. -/
def set (a : Accumulator) (key value : Value) : Outcome Accumulator := do
  return a.insert (← Key.ofValue key) value

/-- The array with the elements of a map: those at integer keys at the next
indices, those at text keys at their keys. -/
def extendEntries (a : Accumulator) : List (Key × Value) → Outcome Accumulator
  | [] => .ok a
  | (.int _, value) :: rest => extendEntries (a.append value) rest
  | (.text t, value) :: rest => do extendEntries (← a.set (.text t) value) rest

/-- The array with the elements of a value, which must be an array. -/
def extend (a : Accumulator) : Value → Outcome Accumulator
  | .list items => .ok (items.foldl append a)
  | .map entries => a.extendEntries entries
  | _ => Outcome.unfoldable .notUnpackable

/-- What a step of building an array is given. -/
inductive Step where
  | append (value : Value)
  | set (key value : Value)
  | extend (value : Value)

/-- What adding the elements of a map to an array under construction comes to, and the
array after it: the elements before one that cannot be added are added. -/
def addEntries (a : Accumulator) : List (Key × Value) → Outcome Unit × Accumulator
  | [] => (.ok (), a)
  | (.int _, value) :: rest => addEntries (a.append value) rest
  | (.text t, value) :: rest =>
    match a.set (.text t) value with
    | .ok b => addEntries b rest
    | .error f => (.error f, a)

/-- What a step on an array under construction comes to, and the array after it. -/
def run (a : Accumulator) : Step → Outcome Unit × Accumulator
  | .append value => (.ok (), a.append value)
  | .set key value =>
    match a.set key value with
    | .ok b => (.ok (), b)
    | .error f => (.error f, a)
  | .extend (.list items) => (.ok (), items.foldl append a)
  | .extend (.map entries) => a.addEntries entries
  | .extend _ => (Outcome.unfoldable .notUnpackable, a)

/-- Whether the keys are `n`, `n + 1`, … in this order. -/
def countsFrom (n : Int) : List (Key × Value) → Bool
  | [] => true
  | (k, _) :: rest => k == .int n && countsFrom (n + 1) rest

/-- The array that the entries make. -/
def valueOf (entries : List (Key × Value)) : Value :=
  if countsFrom 0 entries then .list (entries.map (·.2)) else .map entries

/-- The array as built so far. -/
def value (a : Accumulator) : Value := valueOf a.entries

end Accumulator

end StaticReflection
