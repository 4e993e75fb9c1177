import StaticReflection.Locating.Autoload

/-!
# Locators

A locator offers source texts for identifiers: one text or one file for every
identifier, the file that a table names, the file that a project's autoloading
leads to, or whatever a caller's own locator answers. Some can also list sources
without an identifier. Asking a locator may fill in its class map or use up an
answer, and only that: `World` is the state it works on.
-/

namespace StaticReflection

/-- A table of files by identifier, and the files it lists. -/
structure LookupTable where
  files : List (String × String)
  listed : List (String × String)

/-- A source of source texts. -/
inductive Locator where
  /-- A text, offered for every identifier and listed. -/
  | text (source origin : String)
  /-- A text offered for every identifier, but not listed. -/
  | unlisted (source : String)
  /-- A file, offered for every identifier and listed. -/
  | file (path : Path)
  /-- The files that a table names. -/
  | table (t : LookupTable)
  /-- The files of a project, with the class map once it is known. -/
  | project (rules : AutoloadRules) (index : Option ClassIndex)
  /-- A caller's own locator: what it answers, one request after the other. -/
  | own (answers : List (Except Failure (List Supply)))

/-- What locating depends on. -/
structure World where
  files : FileTree
  trees : GivenTrees
  locators : List Locator
  warnings : List String

/-- A step of locating. -/
abbrev Locating (α : Type) := Folding World α

namespace Locator

/-- The origin of a text that is offered but not listed. -/
def unlistedOrigin : String := "<mutable>"

/-- A locator for a text, which must not be empty. -/
def ofText (source origin : String) : Except Failure Locator :=
  if source.isEmpty then .error .emptySource else .ok (.text source origin)

/-- A locator for a file, which must be there. -/
def ofFile (t : FileTree) (path : Path) : Except Failure Locator :=
  if t.isFile path then .ok (.file path) else .error (.notAFile path.toText)

/-- A locator for a project by its configuration. -/
def ofProject (t : FileTree) (root : Path) (includeDev : Bool) : Except Failure Locator := do
  let config ← ProjectConfig.load t root
  return .project (.ofMappings root (ProjectConfig.mappings config includeDev)) none

/-- How a file locator presents itself. -/
def display : Locator → Option String
  | .file path => some ("SingleFileSourceLocator(" ++ Quoted.encodeString path.toText ++ ")")
  | _ => none

/-- The locator with another text, if it offers one. -/
def withSource (source : String) : Locator → Locator
  | .text _ origin => .text source origin
  | .unlisted _ => .unlisted source
  | l => l

/-- The texts that a locator holds. -/
def texts : Locator → List String
  | .text source _ => [source]
  | .unlisted source => [source]
  | .own answers => answers.flatMap fun answer => (answer.toOption.getD []).filterMap Supply.text?
  | _ => []

/-- The files that a table lists. -/
def listedFiles (t : LookupTable) : ClassIndex := t.listed.map fun (k, p) => (k, Path.ofString p)

end Locator

namespace World

/-- Records warnings. -/
def warn (messages : List String) : Locating Unit :=
  modify fun w => { w with warnings := w.warnings ++ messages }

/-- An outcome that leaves the world alone. -/
def lift {α : Type} (o : Except Failure α) : Locating α := ExceptT.mk (pure o)

/-- The locator at a position. -/
def locator? (i : Nat) : Locating (Option Locator) := do return (← get).locators[i]?

/-- Parses a text, recording a warning if it breaks the grammar. -/
def parse (text origin : String) : Locating ParsedSource := do
  let parsed := (← get).trees.parse text origin
  warn parsed.warnings
  return parsed

/-- The class map of a project, made when it is first asked for. -/
def projectIndex (i : Nat) (rules : AutoloadRules) (known : Option ClassIndex) :
    Locating ClassIndex := do
  match known with
  | some index => return index
  | none => do
    let w ← get
    let (outcome, messages) := (rules.index w.files w.trees).run []
    -- warnings stay when the index fails, which is then made anew the next time
    warn messages
    let index ← lift outcome
    modify fun w => { w with locators := w.locators.set i (.project rules (some index)) }
    return index

/-- The class map of a locator. -/
def classMap (i : Nat) : Locating ClassIndex := do
  match ← locator? i with
  | some (.table t) => return Locator.listedFiles t
  | some (.project rules known) => projectIndex i rules known
  | _ => return []

/-- The file that a locator leads to from an identifier. -/
def findFile (i : Nat) (identifier : String) : Locating (Option Path) := do
  let bare := Identifier.dropLeading identifier
  match ← locator? i with
  | some (.table t) =>
    return ((t.files.lookup bare).filter (!·.isEmpty)).map Path.ofString
  | some (.project rules known) => do
    let index ← projectIndex i rules known
    lift (rules.find (← get).files index bare)
  | _ => return none

/-- The next answer of a caller's own locator; one that has none left offers nothing. -/
def nextAnswer (i : Nat) (answers : List (Except Failure (List Supply))) :
    Locating (List Supply) := do
  modify fun w => { w with locators := w.locators.set i (.own answers.tail) }
  lift (answers.headD (.ok []))

/-- Where a locator has the source for an identifier. -/
def supply? (i : Nat) (identifier : String) : Locating (Option Supply) := do
  match ← locator? i with
  | some (.text source origin) => return some (.text source origin)
  | some (.unlisted source) => return some (.text source Locator.unlistedOrigin)
  | some (.file path) => return some (.file path)
  | some (.own answers) => do return (← nextAnswer i answers).head?
  | some _ => do return (← findFile i identifier).map .file
  | none => return none

/-- Fetches a source. -/
def fetch (identifier : Option String) (s : Supply) : Locating LocatedSource := do
  lift ((← get).files.fetch identifier s)

/-- The source that a locator offers for an identifier. -/
def locateAt (i : Nat) (identifier : String) : Locating (Option LocatedSource) := do
  match ← supply? i identifier with
  | some s => return some (← fetch (some identifier) s)
  | none => return none

/-- Places of the sources that a locator lists. -/
def supplies (i : Nat) : Locating (List Supply) := do
  match ← locator? i with
  | some (.text source origin) => return [.text source origin]
  | some (.file path) => return [.file path]
  | some (.unlisted _) => return []
  | some (.own answers) => nextAnswer i answers
  -- a file with several classes is listed once
  | some _ => do return ((← classMap i).map (·.2)).eraseDups.map .file
  | none => return []

/-- The positions of all locators. -/
def positions : Locating (List Nat) := do return List.range (← get).locators.length

/-- The first source that some locators offer for an identifier. -/
def locateIn (identifier : String) : List Nat → Locating (Option LocatedSource)
  | [] => return none
  | i :: rest => do
    match ← locateAt i identifier with
    | some s => return some s
    | none => locateIn identifier rest

/-- All sources that some locators offer for an identifier. -/
def candidatesIn (identifier : String) : List Nat → Locating (List LocatedSource)
  | [] => return []
  | i :: rest => do
    let here ← locateAt i identifier
    return here.toList ++ (← candidatesIn identifier rest)

/-- All sources that some locators list. -/
def listedIn : List Nat → Locating (List LocatedSource)
  | [] => return []
  | i :: rest => do
    let here ← (← supplies i).mapM (fetch none)
    return here ++ (← listedIn rest)

end World

end StaticReflection
