import StaticReflection.Declaration.ClassLike
import StaticReflection.Locating.ProjectConfig
import StaticReflection.Locating.Source

/-!
# Autoloading

How a project's mappings lead from the name of a class to a file. The class map
comes first: it indexes the class-likes of all files under the mapped paths, the
first file of each name. Then come the rules of the two standards, longer name
beginnings first: under the newer one the rest of the name is the path of the
file, under the older one the whole name, with underscores as slashes too.
-/

namespace StaticReflection

/-- A project's mappings with its root, rules with longer name beginnings first. -/
structure AutoloadRules where
  root : Path
  psr4 : List (String × List Json)
  psr0 : List (String × List Json)
  classmap : List Json

/-- Files by the keys of the classes they declare, in the order they were found. -/
abbrev ClassIndex := List (String × Path)

namespace AutoloadRules

/-- Rules with longer name beginnings first. -/
def longestFirst (rules : List (String × List Json)) : List (String × List Json) :=
  rules.mergeSort fun a b => b.1.length ≤ a.1.length

/-- The rules of a project at a root. -/
def ofMappings (root : Path) (m : AutoloadMappings) : AutoloadRules :=
  ⟨root, longestFirst m.psr4, longestFirst m.psr0, m.classmap⟩

/-- The path of a configured directory or file. -/
def pathOf (r : AutoloadRules) : Json → Except Failure Path
  | .text t => .ok (r.root.join (Path.ofString t.display))
  | _ => .error (.fault .directoryNotText)

/-- A text with a character in place of another. -/
def replaceChar (old new : Char) (s : String) : String :=
  s.map fun c => if c = old then new else c

/-- The first of some directories in which a relative path leads to a file. -/
def firstFile (r : AutoloadRules) (t : FileTree) (relative : Path) :
    List Json → Except Failure (Option Path)
  | [] => .ok none
  | d :: rest => do
    let candidate := (← r.pathOf d).join relative
    if t.isFile candidate then return some candidate else r.firstFile t relative rest

/-- Whether a rule is for an identifier. -/
def applies (beginning identifier : String) : Bool :=
  (LetterCase.lower identifier).startsWith (LetterCase.lower beginning)

/-- The path of a class below the directories of a rule of the newer standard. -/
def psr4Path (beginning identifier : String) : Path :=
  let rest := String.ofList (identifier.toList.drop beginning.length)
  Path.ofString (replaceChar '\\' '/' rest ++ ".php")

/-- The path of a class below the directories of a rule of the older standard. -/
def psr0Path (identifier : String) : Path :=
  let className := Identifier.lastSegment identifier
  let file := replaceChar '_' '/' className ++ ".php"
  let namespaceName := String.ofList
    (identifier.toList.take (identifier.length - className.length - 1))
  if namespaceName.isEmpty then Path.ofString file
  else Path.ofString (replaceChar '\\' '/' namespaceName ++ "/" ++ file)

/-- The file that rules lead to, given the path below the directories of each. -/
def followRules (r : AutoloadRules) (t : FileTree) (identifier : String)
    (relative : String → Path) : List (String × List Json) → Except Failure (Option Path)
  | [] => .ok none
  | (beginning, directories) :: rest => do
    if applies beginning identifier then
      match ← r.firstFile t (relative beginning) directories with
      | some found => return some found
      -- a rule that has no such file leaves the identifier to the shorter ones
      | none => r.followRules t identifier relative rest
    else r.followRules t identifier relative rest

/-- The file of a class by the rules of both standards. -/
def findByRules (r : AutoloadRules) (t : FileTree) (identifier : String) :
    Except Failure (Option Path) := do
  match ← r.followRules t identifier (fun b => psr4Path b identifier) r.psr4 with
  | some found => return some found
  | none => r.followRules t identifier (fun _ => psr0Path identifier) r.psr0

/-- The file of a class, by the class map or by the rules. -/
def find (r : AutoloadRules) (t : FileTree) (index : ClassIndex) (identifier : String) :
    Except Failure (Option Path) :=
  match index.lookup (Identifier.normalize identifier) with
  | some found => .ok (some found)
  | none => r.findByRules t identifier

/-! ## The class map -/

/-- The files to be searched under a mapped path: the file itself, or all PHP
files of the directory. -/
def filesUnder (t : FileTree) (path : Path) : List Path :=
  if t.isFile path then [path] else t.phpPaths path

/-- An index with a class, unless it has one with that key. -/
def addClass (index : ClassIndex) (key : String) (path : Path) : ClassIndex :=
  if (index.lookup key).isSome then index else index ++ [(key, path)]

/-- An index with the classes of a source. -/
def addClasses (index : ClassIndex) (p : ParsedSource) (path : Path) : ClassIndex :=
  (ClassLike.all p).foldl (fun acc c => addClass acc c.key path) index

/-- An outcome with the warnings it leaves. -/
abbrev Warned (α : Type) := ExceptT Failure (StateM (List String)) α

/-- An index with the classes of some files. -/
def addFiles (t : FileTree) (trees : GivenTrees) : ClassIndex → List Path → Warned ClassIndex
  | index, [] => return index
  | index, path :: rest => do
    let located ← ExceptT.mk (pure (t.fetch none (.file path)))
    let parsed := trees.parse located.text located.origin
    modify (· ++ parsed.warnings)
    addFiles t trees (addClasses index parsed path) rest

/-- An index with the classes under some mapped paths. -/
def addEntries (r : AutoloadRules) (t : FileTree) (trees : GivenTrees) :
    ClassIndex → List Json → Warned ClassIndex
  | index, [] => return index
  | index, entry :: rest => do
    let path ← ExceptT.mk (pure (r.pathOf entry))
    let index ← addFiles t trees index (filesUnder t path)
    r.addEntries t trees index rest

/-- The index of all classes under the mapped paths. -/
def index (r : AutoloadRules) (t : FileTree) (trees : GivenTrees) : Warned ClassIndex :=
  r.addEntries t trees [] r.classmap

end AutoloadRules

end StaticReflection
