import StaticReflection.Folding.Fold
import StaticReflection.Grammar.Program
import StaticReflection.Locating.FileTree

/-!
# Located sources and the world they come from

A located source is a text, where it came from, and the identifier it was located
for. A `World` holds what locating depends on: the file tree, the locators, and
the syntax trees that are given for some texts instead of being parsed. Parsing a
text that breaks the grammar leaves a warning.
-/

namespace StaticReflection

/-- A source text and where it came from. -/
structure LocatedSource where
  text : String
  origin : String
  identifier : Option String
  deriving DecidableEq, Repr

/-- The file of a source; a source whose origin is in angle brackets has none. -/
def LocatedSource.fileName? (s : LocatedSource) : Option String :=
  if s.origin.startsWith "<" then none else some s.origin

/-- A source that is ready to be fetched: a text, or a file yet to be read. -/
inductive Supply where
  | text (source origin : String)
  | file (path : Path)

/-- The text of a supply that is one. -/
def Supply.text? : Supply → Option String
  | .text source _ => some source
  | .file _ => none

/-- Fetches a source from a file tree. -/
def FileTree.fetch (t : FileTree) (identifier : Option String) :
    Supply → Except Failure LocatedSource
  | .text source origin => .ok ⟨source, origin, identifier⟩
  | .file path =>
    match t.text path with
    | .ok text => .ok ⟨text, path.toText, identifier⟩
    | .error e => .error (.unreadable path.toText e)

/-- Syntax trees that are given for texts; the last one given for a text counts. -/
abbrev GivenTrees := List (String × Node)

/-- A text with its syntax tree, given or parsed. -/
def GivenTrees.parse (trees : GivenTrees) (text origin : String) : ParsedSource :=
  ⟨Source.ofString text, origin, (trees.reverse.lookup text).getD (Grammar.parse text)⟩

/-- The warning about a source that breaks the grammar. -/
def ParsedSource.warnings (p : ParsedSource) : List String :=
  match p.syntaxErrors with
  | [] => []
  | (line, column) :: rest =>
    let count := ((line, column) :: rest).length
    [p.origin ++ ": " ++ DecimalText.ofInt count ++ " syntax error(s), first at line "
      ++ DecimalText.ofInt line]

end StaticReflection
