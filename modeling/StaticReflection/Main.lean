import StaticReflection.CommandLine.Run

/-!
# The program

Reads what a command may look at into a file tree, runs the command there, and
prints the answer. That is the given files, the project given or found, and the
directories that its configuration names.
-/

namespace StaticReflection.Program

/-- The environment variable that asks for development sections. -/
def devVariable : String := "STATIC_REFLECTION_INCLUDE_DEV"

/-- How many directories deep a tree is read; links may make it endless. -/
def maxDepth : Nat := 64

/-- The path of a place, as a text. -/
def pathText (place : Place) : String := "/" ++ String.intercalate "/" place

/-- A tree with what is at a place, as deep as allowed. -/
def read : Nat → FileTree → Place → IO FileTree
  | 0, t, _ => return t
  | depth + 1, t, place => do
    let path := (← IO.currentDir) / pathText place
    if ← path.isDir then
      (← path.readDir).foldlM (fun t e => read depth t (place ++ [e.fileName]))
        (t.makeDirectory place)
    else if ← path.pathExists then
      return t.write ⟨"/", place⟩ (← IO.FS.readBinFile path).toList
    else return t

/-- A tree with what is at some paths. -/
def readAll (t : FileTree) (paths : List Path) : IO FileTree :=
  paths.foldlM (fun t p => read maxDepth t (t.place p)) t

/-- A tree with the configuration files from the working directory upwards. -/
def readConfigs (t : FileTree) : IO FileTree :=
  readAll t (t.working.chain.map fun p => ⟨"/", p ++ [ProjectConfig.fileName]⟩)

/-- The paths that the configuration of a project names. -/
def configuredPaths (t : FileTree) (root : Path) : List Path :=
  match ProjectConfig.load t root with
  | .error _ => []
  | .ok config =>
    let m := ProjectConfig.mappings config true
    let rules := AutoloadRules.ofMappings root m
    let entries := m.classmap ++ (m.psr4 ++ m.psr0).flatMap (·.2)
    entries.filterMap fun e => (rules.pathOf e).toOption

/-- A tree with all that an invocation may look at. -/
def readFor (i : CommandLine.Invocation) (t : FileTree) : IO FileTree := do
  let t ← readAll (← readConfigs t) (i.sources.files.map Path.ofString)
  match CommandLine.projectRoot? i.sources t with
  | none => return t
  | some root =>
    let t ← readAll t [root]
    readAll t (configuredPaths t root)

/-- The tree that holds the working directory and nothing else. -/
def workingTree : IO FileTree := do
  return FileTree.empty (Path.ofString (toString (← IO.currentDir))).parts

/-- Runs the program on its arguments. -/
def run (args : List String) : IO UInt32 := do
  let t ← workingTree
  let t ← match CommandLine.Invocation.ofArguments? args with
    | none => pure t
    | some i => readFor i t
  let answer := CommandLine.run args t (← IO.getEnv devVariable)
  IO.print answer.output
  IO.eprint answer.errors
  return answer.exitCode.toUInt32

end StaticReflection.Program

/-- Runs the program. -/
def main (args : List String) : IO UInt32 := StaticReflection.Program.run args
