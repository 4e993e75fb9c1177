import StaticReflection.Json.Reader
import StaticReflection.Locating.FileTree
import StaticReflection.Text.LetterCase

/-!
# Project configuration

Where a project keeps its classes, as its `composer.json` says: rules from name
beginnings to directories, and files and directories to be searched whole. The
sections for development count only on request.

The configuration is checked first (`check`) and then read (`mappings`). What
stands in a list of directories is not checked, so directories stay JSON values.
-/

namespace StaticReflection

/-- Where a project keeps its classes. -/
structure AutoloadMappings where
  psr4 : List (String × List Json)
  psr0 : List (String × List Json)
  classmap : List Json

namespace ProjectConfig

/-- The name of the configuration file. -/
def fileName : String := "composer.json"

/-- The sections of a configuration, that for development last. -/
def sectionNames : List String := ["autoload", "autoload-dev"]

/-- The member of an object that is neither absent nor null. -/
def given? (j : Json) (name : String) : Option Json :=
  match j.member? name with
  | some .null => none
  | m => m

/-- Whether a value may stand for the directories of a rule. -/
def isPaths : Json → Bool
  | .text _ => true
  | .array _ => true
  | _ => false

/-- Checks the rules of one kind in a section. -/
def checkRules (sectionName kind : String) (j : Json) : Except ConfigError Unit :=
  match given? j kind with
  | none => .ok ()
  | some (.object members) =>
    match members.find? fun (_, paths) => !isPaths paths with
    | some (rule, _) => .error (.notPaths sectionName kind rule.display)
    | none => .ok ()
  | some _ => .error (.mappingNotAnObject sectionName kind)

/-- Checks a section. -/
def checkSection (config : Json) (sectionName : String) : Except ConfigError Unit :=
  match given? config sectionName with
  | none => .ok ()
  | some (.object members) => do
    let content := Json.object members
    checkRules sectionName "psr-4" content
    checkRules sectionName "psr-0" content
    match given? content "classmap" with
    | none => .ok ()
    | some (.array _) => .ok ()
    | some _ => .error (.classmapNotAList sectionName)
  | some _ => .error (.sectionNotAnObject sectionName)

/-- Checks that a configuration can be read. -/
def check (config : Json) : Except ConfigError Unit :=
  match config with
  | .object _ => sectionNames.forM (checkSection config)
  | _ => .error .notAnObject

/-- The directories of a rule. -/
def pathsOf : Json → List Json
  | .array paths => paths
  | path => [path]

/-- Rules with more directories for a name beginning. -/
def addRule (beginning : String) (paths : List Json) :
    List (String × List Json) → List (String × List Json)
  | [] => [(beginning, paths)]
  | (b, ps) :: rest =>
    if b == beginning then (b, ps ++ paths) :: rest else (b, ps) :: addRule beginning paths rest

/-- Rules with those of a section. -/
def addRules (content : Json) (kind : String) (rules : List (String × List Json)) :
    List (String × List Json) :=
  match content.member? kind with
  | some (.object members) =>
    members.foldl (fun acc (rule, paths) => addRule rule.display (pathsOf paths) acc) rules
  | _ => rules

/-- Mappings with those of a section. -/
def addSection (config : Json) (m : AutoloadMappings) (sectionName : String) : AutoloadMappings :=
  match config.member? sectionName with
  | some content =>
    { psr4 := addRules content "psr-4" m.psr4
      psr0 := addRules content "psr-0" m.psr0
      classmap := m.classmap ++ match content.member? "classmap" with
        | some (.array paths) => paths
        | _ => [] }
  | none => m

/-- The mappings of a configuration that was checked. -/
def mappings (config : Json) (includeDev : Bool) : AutoloadMappings :=
  (if includeDev then sectionNames else sectionNames.take 1).foldl (addSection config) ⟨[], [], []⟩

/-- Whether the value of the environment variable asks for development sections. -/
def asksForDev (value : Option String) : Bool :=
  ["1", "true", "yes", "on"].contains (LetterCase.lower (Blank.strip (value.getD "")))

/-- The configuration in a directory. -/
def load (t : FileTree) (root : Path) : Except Failure Json :=
  let path := root.join (Path.ofString fileName)
  if !t.exists? path then .error (.badConfig (.missing path.toText))
  else
    match t.bytes path with
    | .error _ => .error (.fault .configIsDirectory)
    | .ok bytes =>
      match Utf8.firstDamage? bytes with
      | some damage => .error (.badConfig (.notUtf8 damage))
      | none =>
        match Json.read? (String.ofList (Lines.unify (Utf8.decodeFrom none bytes))) with
        | none => .error (.badConfig (.notJson path.toText))
        | some config =>
          match check config with
          | .error e => .error (.badConfig e)
          | .ok () => .ok config

/-- The nearest directory with a configuration, from a place upwards. -/
def rootAbove? (t : FileTree) (place : Place) : Option Place :=
  place.chain.reverse.find? fun p => t.isFile ⟨"/", p ++ [fileName]⟩

end ProjectConfig

end StaticReflection
