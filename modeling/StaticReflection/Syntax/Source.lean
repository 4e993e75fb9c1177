import StaticReflection.Syntax.Node
import StaticReflection.Text.Utf8

/-!
# Source texts

A source is a sequence of bytes; nodes point into it by byte offsets. Lines and
columns are counted from the line feeds before an offset, columns in bytes.
-/

namespace StaticReflection

/-- The bytes of a source. -/
structure Source where
  bytes : Array UInt8
  deriving DecidableEq

namespace Source

/-- The UTF-8 bytes of a text. -/
def ofString (s : String) : Source := ⟨s.toUTF8.data⟩

/-- The text between two offsets. -/
def slice (s : Source) (start stop : Nat) : String :=
  Utf8.decode (s.bytes.extract start stop).toList

/-- The text that a node covers. -/
def text (s : Source) (n : Node) : String := s.slice n.start n.stop

/-- The bytes before an offset. -/
def bytesBefore (s : Source) (offset : Nat) : List UInt8 := (s.bytes.extract 0 offset).toList

/-- The line of an offset, the first one being 1. -/
def line (s : Source) (offset : Nat) : Nat := (s.bytesBefore offset).count 10 + 1

/-- The number of bytes between the start of its line and an offset. -/
def column (s : Source) (offset : Nat) : Nat :=
  offset - (s.bytesBefore offset).length
    + ((s.bytesBefore offset).reverse.takeWhile (· != 10)).length

/-- The line on which a node starts. -/
def startLine (s : Source) (n : Node) : Nat := s.line n.start

/-- The line on which a node ends. -/
def endLine (s : Source) (n : Node) : Nat := s.line n.stop

end Source

/-- A source, where it came from, and its syntax tree. -/
structure ParsedSource where
  source : Source
  origin : String
  root : Node

namespace ParsedSource

/-- The text that a node covers. -/
def text (p : ParsedSource) (n : Node) : String := p.source.text n

/-- Where the source breaks the grammar: line and column, both from 1. -/
def syntaxErrors (p : ParsedSource) : List (Nat × Nat) :=
  (p.root.preorder.filter Node.isError).map fun n =>
    (p.source.line n.start, p.source.column n.start + 1)

/-- The file of the source; a source whose origin is in angle brackets has none. -/
def fileName? (p : ParsedSource) : Option String :=
  if p.origin.startsWith "<" then none else some p.origin

end ParsedSource

end StaticReflection
