import StaticReflection.Failure
import StaticReflection.Locating.Path
import StaticReflection.Text.Lines
import StaticReflection.Text.Utf8

/-!
# File trees

The files and directories that paths lead to. A path is followed component by
component from the working directory, or from the top if it has a root; two dots
lead back to the directory above. Files are read as UTF-8, with every kind of
line break as a line feed.
-/

namespace StaticReflection

/-- The place of a file or directory: its components from the top. -/
abbrev Place := List String

/-- A place and those above it, from the top. -/
def Place.chain (p : Place) : List Place := (List.range (p.length + 1)).map fun n => p.take n

/-- Files with their bytes, the directories, and the working directory. -/
structure FileTree where
  files : List (Place × List UInt8)
  directories : List Place
  working : Place

/-- What a path leads to. -/
inductive Entry where
  | file (bytes : List UInt8)
  | directory (place : Place)

namespace FileTree

/-- A tree with nothing but the working directory. -/
def empty (working : Place) : FileTree := ⟨[], working.chain, working⟩

/-- Whether there is a directory at a place. -/
def isDirectory (t : FileTree) (p : Place) : Bool := p.isEmpty || t.directories.contains p

/-- What is at a place. -/
def entry (t : FileTree) (p : Place) : Except ReadError Entry :=
  match t.files.lookup p with
  | some bytes => .ok (.file bytes)
  | none => if t.isDirectory p then .ok (.directory p) else .error .noSuchFile

/-- What components lead to from a directory. -/
def follow (t : FileTree) (p : Place) : List String → Except ReadError Entry
  | [] => t.entry p
  | c :: rest =>
    if t.isDirectory p then
      if c = ".." then t.follow p.dropLast rest else t.follow (p ++ [c]) rest
    else if (t.files.lookup p).isSome then .error .notADirectory
    else .error .noSuchFile

/-- What a path leads to. -/
def find (t : FileTree) (p : Path) : Except ReadError Entry :=
  t.follow (if p.root.isEmpty then t.working else []) p.parts

/-- Whether a path leads to a file. -/
def isFile (t : FileTree) (p : Path) : Bool :=
  match t.find p with
  | .ok (.file _) => true
  | _ => false

/-- Whether a path leads to anything. -/
def exists? (t : FileTree) (p : Path) : Bool := (t.find p).toOption.isSome

/-- The place of the directory that a path leads to. -/
def directory? (t : FileTree) (p : Path) : Option Place :=
  match t.find p with
  | .ok (.directory place) => some place
  | _ => none

/-- The bytes of the file that a path leads to. -/
def bytes (t : FileTree) (p : Path) : Except ReadError (List UInt8) :=
  match t.find p with
  | .ok (.file bytes) => .ok bytes
  | .ok (.directory _) => .error .isDirectory
  | .error e => .error e

/-- The text of the file that a path leads to. -/
def text (t : FileTree) (p : Path) : Except ReadError String := do
  return String.ofList (Lines.unify (Utf8.decodeFrom none (← t.bytes p)))

/-- The tree with a directory and those above it. -/
def makeDirectory (t : FileTree) (p : Place) : FileTree :=
  let missing := (Place.chain p).filter fun d => !t.directories.contains d
  { t with directories := t.directories ++ missing }

/-- The place that components lead to, whatever is there. -/
def placeOf (p : Place) : List String → Place
  | [] => p
  | c :: rest => if c = ".." then placeOf p.dropLast rest else placeOf (p ++ [c]) rest

/-- The place of a path, whatever is there. -/
def place (t : FileTree) (p : Path) : Place :=
  placeOf (if p.root.isEmpty then t.working else []) p.parts

/-- The tree with a file at a path, which takes the place of one that is there. -/
def write (t : FileTree) (p : Path) (bytes : List UInt8) : FileTree :=
  let place := t.place p
  let t := t.makeDirectory place.dropLast
  { t with files := t.files.filter (·.1 != place) ++ [(place, bytes)] }

/-- The tree without the file at a path. -/
def remove (t : FileTree) (p : Path) : FileTree :=
  let place := t.place p
  { t with files := t.files.filter (·.1 != place) }

/-- Whether a name ends with the extension of PHP files. -/
def isPhpName (name : String) : Bool := name.endsWith ".php"

/-- The places below a directory, at any depth. -/
def below (t : FileTree) (p : Place) : List Place :=
  (t.files.map (·.1) ++ t.directories).filter fun q => p.isPrefixOf q && p.length < q.length

/-- The paths of what is below a directory and is named like a PHP file, ordered
by their components. -/
def phpPaths (t : FileTree) (p : Path) : List Path :=
  match t.directory? p with
  | none => []
  | some place =>
    let found := (t.below place).filter fun q => (q.getLast?.map isPhpName).getD false
    (found.map fun q => p.join ⟨"", q.drop place.length⟩).mergeSort fun a b => !b.before a

end FileTree

end StaticReflection
