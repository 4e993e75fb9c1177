import StaticReflection.Text.Blank
import StaticReflection.Text.LetterCase

/-!
# Names of classes

Class names are written relative to a namespace and its imports, and are
compared without regard to letter case. `NameScope.resolve` gives the full name
of a class as it is written somewhere; `Identifier.normalize` gives the key
under which a full name is looked up.
-/

namespace StaticReflection

namespace Identifier

/-- The name without the backslashes it begins with. -/
def dropLeading (name : String) : String := String.ofList (name.toList.dropWhile (· == '\\'))

/-- The identifier without blanks around it and backslashes before it. -/
def trimmed (identifier : String) : String := dropLeading (Blank.strip identifier)

/-- The key of an identifier: identifiers with the same key name the same class. -/
def normalize (identifier : String) : String := LetterCase.lower (trimmed identifier)

/-- Two parts of a name with a backslash between them. -/
def qualify (namespaceName name : String) : String :=
  if namespaceName.isEmpty then name else namespaceName ++ "\\" ++ name

/-- The part of a name after its last backslash. -/
def lastSegment (name : String) : String :=
  String.ofList (name.toList.reverse.takeWhile (· != '\\')).reverse

end Identifier

/-- Class imports: full names by alias in lower case, in the order of their first mention. -/
abbrev Imports := List (String × String)

namespace Imports

/-- The imports with one more; an alias that was there keeps its place. -/
def add (short path : String) : Imports → Imports
  | [] => [(short, path)]
  | (a, p) :: rest => if a == short then (a, path) :: rest else (a, p) :: add short path rest

/-- The full name of an alias. -/
def find? (imports : Imports) (short : String) : Option String :=
  (imports.lookup short).filter (!·.isEmpty)

end Imports

/-- The namespace and the imports in effect at a place. -/
structure NameScope where
  namespaceName : String
  imports : Imports

namespace NameScope

/-- The scope outside all namespaces, with no imports. -/
def empty : NameScope := ⟨"", []⟩

/-- Class names that depend on the class around them. -/
def relativeWords : List String := ["self", "static", "parent"]

/-- What begins a name that is relative to the namespace. -/
def namespaceMark : String := "namespace\\"

/-- The part of a name before its first backslash. -/
def headSegment (name : String) : String := String.ofList (name.toList.takeWhile (· != '\\'))

/-- The rest of a name from its first backslash on. -/
def tailSegments (name : String) : String := String.ofList (name.toList.dropWhile (· != '\\'))

/-- The full name of a class, without a leading backslash, from the name as written. -/
def resolve (s : NameScope) (name : String) : String :=
  let lowered := LetterCase.lower name
  if name.startsWith "\\" then String.ofList (name.toList.drop 1)
  else if relativeWords.contains lowered then name
  else if lowered.startsWith namespaceMark then
    Identifier.qualify s.namespaceName (String.ofList (name.toList.drop namespaceMark.length))
  else
    match s.imports.find? (LetterCase.lower (headSegment name)) with
    | some path => path ++ tailSegments name
    | none => Identifier.qualify s.namespaceName name

end NameScope

end StaticReflection
