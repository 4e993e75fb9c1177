/-!
# Paths

A path is a root (none, one slash or two) and components. Repeated slashes and
components that are a single dot go away when a path is read; two dots stay, for
they can only be resolved among real directories.
-/

namespace StaticReflection

/-- A path of a file or directory. -/
structure Path where
  root : String
  parts : List String
  deriving DecidableEq, Repr

namespace Path

/-- The path to where one is. -/
def here : Path := ⟨"", []⟩

/-- The pieces of a text between slashes. -/
def pieces : List Char → List (List Char)
  | [] => [[]]
  | c :: rest =>
    if c = '/' then [] :: pieces rest
    else match pieces rest with
      | [] => [[c]]
      | first :: more => (c :: first) :: more

/-- The root of a path's text. -/
def rootOf : List Char → String
  | '/' :: '/' :: '/' :: _ => "/"
  | '/' :: '/' :: _ => "//"
  | '/' :: _ => "/"
  | _ => ""

/-- The path with a text. -/
def ofString (s : String) : Path :=
  ⟨rootOf s.toList,
    ((pieces s.toList).filter fun p => !p.isEmpty && p != ['.']).map String.ofList⟩

/-- The text of a path; that of the empty path is a dot. -/
def toText (p : Path) : String :=
  if p.root.isEmpty && p.parts.isEmpty then "." else p.root ++ String.intercalate "/" p.parts

/-- A path below another; one with a root stands for itself. -/
def join (p q : Path) : Path :=
  if q.root.isEmpty then ⟨p.root, p.parts ++ q.parts⟩ else q

/-- The path without its last component. -/
def parent (p : Path) : Path := ⟨p.root, p.parts.dropLast⟩

/-- Whether the components of a path come before those of another. -/
def before (p q : Path) : Bool := go (rootParts p) (rootParts q)
where
  rootParts (p : Path) : List String := if p.root.isEmpty then p.parts else p.root :: p.parts
  go : List String → List String → Bool
    | _, [] => false
    | [], _ :: _ => true
    | a :: as, b :: bs => if a = b then go as bs else a < b

end Path

end StaticReflection
