import StaticReflection.Syntax.Node

/-!
# Scanning a source text

A scan reads from a cursor and may decline; a scan that declines has read
nothing, so alternatives start where the first one did. Comments, blanks and
stretches of text outside the PHP tags may stand between any two tokens:
`Scan.skip` passes them and keeps the comments and stretches on the cursor, from
which they are put into the finished tree.

Loops go on only while they move forward (`iterate`), so every scan ends. The
cursor counts the characters that are left, so that this is told at once.
-/

namespace StaticReflection.Grammar

/-- A place in a text: what follows and how many characters that are, the byte offset
reached, the end of the last token, and the comments passed so far, the last one first. -/
structure Cursor where
  rest : List Char
  left : Nat
  offset : Nat
  last : Nat
  extras : List Node

/-- A scan reads from a cursor, or declines. -/
abbrev Scan (α : Type) := StateT Cursor Option α

/-- The number of bytes of some characters. -/
def byteLength (cs : List Char) : Nat := cs.foldl (fun n c => n + c.utf8Size) 0

/-- Whether a character may begin a name. -/
def isNameStart (c : Char) : Bool :=
  c.isAlpha || c == '_'
    || (0x80 ≤ c.toNat && !([0xa0, 0x200b, 0x2060, 0xfeff].contains c.toNat))

/-- Whether a character may stand in a name after its first. -/
def isNamePart (c : Char) : Bool := isNameStart c || c.isDigit

/-- Whether a character is a blank between tokens. -/
def isGap (c : Char) : Bool :=
  c == ' ' || (9 ≤ c.toNat && c.toNat ≤ 13) || [0x85, 0xa0, 0x1680, 0x2028, 0x2029, 0x202f, 0x205f,
    0x3000, 0x200b, 0x2060, 0xfeff].contains c.toNat || (0x2000 ≤ c.toNat && c.toNat ≤ 0x200a)

/-- The length of what a line comment may take: all up to the end of the line or
a closing tag. -/
def lineCommentLength : List Char → Nat
  | [] => 0
  | ['?'] => 0
  | '?' :: '\n' :: _ => 2
  | '?' :: '\r' :: '\n' :: _ => 3
  | '?' :: c :: rest => if c == '>' || c == '\r' then 0 else lineCommentLength rest + 2
  | c :: rest => if c == '\n' || c == '\r' then 0 else lineCommentLength rest + 1

/-- The length of a block comment after its opening. -/
def blockCommentLength? : List Char → Option Nat
  | [] => none
  | '*' :: '/' :: _ => some 2
  | _ :: rest => (blockCommentLength? rest).map (· + 1)

/-- The length of the comment at the start of a text. -/
def commentLength? : List Char → Option Nat
  | '/' :: '/' :: rest => some (lineCommentLength rest + 2)
  | '/' :: '*' :: rest => (blockCommentLength? rest).map (· + 2)
  | '#' :: c :: rest =>
    if c == '[' then none
    else if c == '?' || c == '\n' || c == '\r' then some 1
    else some (lineCommentLength rest + 2)
  | ['#'] => some 1
  | _ => none

/-- The length of an opening PHP tag at the start of a text. -/
def openTagLength? : List Char → Option Nat
  | '<' :: '?' :: '=' :: _ => some 3
  | '<' :: '?' :: a :: b :: c :: _ =>
    if a.toLower == 'p' && b.toLower == 'h' && c.toLower == 'p' then some 5 else some 2
  | '<' :: '?' :: _ => some 2
  | _ => none

/-- The length of the text before the next opening tag, and that of the tag. -/
def outsideLength : List Char → Nat × Nat
  | [] => (0, 0)
  | c :: rest =>
    match openTagLength? (c :: rest) with
    | some n => (0, n)
    | none =>
      let (text, tag) := outsideLength rest
      (text + 1, tag)

/-- What may stand between tokens: its length, and the kind of the node that keeps it. -/
def extra? : List Char → Option (Nat × Option String)
  | [] => none
  | '?' :: '>' :: rest =>
    let (text, tag) := outsideLength rest
    some (text + tag + 2, some "text_interpolation")
  | c :: rest =>
    if isGap c then some (1, none)
    else (commentLength? (c :: rest)).map fun n => (n, some "comment")

namespace Cursor

/-- A cursor at the start of a text. -/
def start (cs : List Char) : Cursor := ⟨cs, cs.length, 0, 0, []⟩

/-- The cursor some characters further on. -/
def advance (c : Cursor) (n : Nat) : Cursor :=
  { c with
    rest := c.rest.drop n
    left := c.left - n
    offset := c.offset + byteLength (c.rest.take n) }

/-- The cursor after a token of some characters. -/
def token (c : Cursor) (n : Nat) : Cursor :=
  let d := c.advance n
  { d with last := d.offset }

/-- The cursor after what stands before the next token; a closing tag is passed
only where it may be. -/
def skip (throughTags : Bool) (c : Cursor) : Cursor :=
  if !throughTags && c.rest.take 2 == ['?', '>'] then c
  else match extra? c.rest with
    | none => c
    | some (n, kind?) =>
      let d := c.advance n
      let e := match kind? with
        | none => d
        | some kind =>
          { d with extras := ⟨kind, c.offset, d.offset, none, true, false, []⟩ :: d.extras }
      if e.left < c.left then skip throughTags e else c
termination_by c.left

end Cursor

namespace Scan

/-- A scan that reads nothing. -/
def decline {α : Type} : Scan α := fun _ => none

/-- Declines unless a condition holds. -/
def require (p : Bool) : Scan Unit := if p then pure () else decline

/-- What follows the cursor. -/
def rest : Scan (List Char) := fun c => some (c.rest, c)

/-- The end of the last token. -/
def last : Scan Nat := fun c => some (c.last, c)

/-- Passes what stands before the next token. -/
def skip : Scan Unit := fun c => some ((), c.skip true)

/-- Passes what stands before the next token, but no closing tag. -/
def skipInside : Scan Unit := fun c => some ((), c.skip false)

/-- Passes what stands before the next token, and gives the byte offset there. -/
def place : Scan Nat := fun c => let d := c.skip true; some (d.offset, d)

/-- Reads some characters as a token or a part of one. -/
def take (n : Nat) : Scan Unit := fun c => some ((), c.token n)

/-- The outcome of a scan without its reading. -/
def peek {α : Type} (p : Scan α) : Scan α := fun c => (p c).map fun r => (r.1, c)

/-- Whether a scan would read on from here. -/
def ahead {α : Type} (p : Scan α) : Scan Bool := fun c => some ((p c).isSome, c)

/-- What a scan yields, if it does not decline. -/
def maybe {α : Type} (p : Scan α) : Scan (Option α) := fun c =>
  match p c with
  | some (a, d) => some (some a, d)
  | none => some (none, c)

/-- Repeats a step on what it yields until it declines or does not move. -/
def iterateFrom {α : Type} (step : α → Scan α) (a : α) (c : Cursor) : α × Cursor :=
  match step a c with
  | none => (a, c)
  | some (b, d) =>
    if d.left < c.left then iterateFrom step b d else (a, c)
termination_by c.left

/-- Repeats a step on what it yields until it declines or does not move. -/
def iterate {α : Type} (step : α → Scan α) (a : α) : Scan α := fun c =>
  some (iterateFrom step a c)

/-- Everything that repeating a scan yields, in order. -/
def many {α : Type} (p : Scan (List α)) : Scan (List α) := do
  let found ← iterate (fun acc => do return (← p).reverse ++ acc) []
  return found.reverse

/-- The nodes of an optional part. -/
def orNone {α : Type} (p : Scan (List α)) : Scan (List α) := do
  return (← maybe p).getD []

/-- Single nodes as a list. -/
def one {α : Type} (p : Scan α) : Scan (List α) := do return [← p]

/-- A leaf of a kind over some characters. -/
def leaf (kind : String) (isNamed : Bool) (n : Nat) : Scan Node := fun c =>
  let d := c.token n
  some (⟨kind, c.offset, d.offset, none, isNamed, false, []⟩, d)

/-- A node over all that a scan reads, with the nodes it yields as children. -/
def node (kind : String) (p : Scan (List Node)) : Scan Node := do
  let start ← place
  let children ← p
  return ⟨kind, start, ← last, none, true, false, children⟩

/-- A node from a place up to the last token. -/
def nodeFrom (kind : String) (start : Nat) (children : List Node) : Scan Node := do
  return ⟨kind, start, ← last, none, true, false, children⟩

/-- A punctuation mark. -/
def mark (spelling : String) : Scan Node := do
  skip
  let cs := spelling.toList
  require (cs.isPrefixOf (← rest))
  leaf spelling false cs.length

/-- The name at the cursor, if there is one. -/
def word? : Scan (Option String) := do
  match ← rest with
  | c :: cs =>
    return if isNameStart c then some (String.ofList (c :: cs.takeWhile isNamePart)) else none
  | [] => return none

/-- The next word in lower case; empty if none follows. -/
def nextWord : Scan String := do
  skip
  return ((← word?).getD "").toLower

/-- A keyword, in any letter case. -/
def keyword (spelling : String) : Scan Node := do
  require ((← nextWord) == spelling)
  leaf spelling false spelling.length

/-- One of some keywords. -/
def oneKeyword (spellings : List String) : Scan Node := do
  let w ← nextWord
  require (spellings.contains w)
  leaf w false w.length

/-- A leaf over the next word. -/
def wordAs (kind : String) : Scan Node := do
  skip
  match ← word? with
  | some w => leaf kind true w.length
  | none => decline

/-- Parts with commas between them; a part may be left out. -/
def listed (p : Scan Node) : Scan (List Node) := do
  let first ← orNone (one p)
  let more ← many do
    let comma ← mark ","
    return comma :: (← orNone (one p))
  return first ++ more

/-- Parts with commas between them. -/
def separated (p : Scan Node) : Scan (List Node) := do
  let first ← p
  let more ← many do
    let comma ← mark ","
    return [comma, ← p]
  return first :: more

/-- A name. -/
def name : Scan Node := wordAs "name"

end Scan

end StaticReflection.Grammar

namespace StaticReflection

/-- The node as the child in a field of its parent. -/
def Node.inField (n : Node) (field : String) : Node := { n with field := some field }

end StaticReflection
