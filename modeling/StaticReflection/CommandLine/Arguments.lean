import StaticReflection.Locating.FileTree

/-!
# Command-line arguments

Flags of the program, a command, and the command's own options and arguments,
which may stand in any order; two dashes end the options. An option that takes a
value has it after an equals sign or as the next argument, whatever that looks
like. Everything else is a wrong use, and so is a path that is not there.
-/

namespace StaticReflection.CommandLine

/-- What a command is to do. -/
inductive Command where
  | classes
  | showClass (identifier : String) (inherited : Bool)
  | showProperty (identifier name : String)
  deriving Repr

/-- Where a command is to look for classes. -/
structure Sources where
  files : List String
  text : Option String
  project : Option String
  deriving Repr

/-- What the arguments ask for. -/
structure Invocation where
  json : Bool
  command : Command
  sources : Sources
  deriving Repr

/-- The flags of the program: whether the report is to be JSON, and what follows. -/
def programFlags (json : Bool) : List String → Option (Bool × List String)
  | [] => none
  | arg :: rest =>
    if arg = "--json" then programFlags true rest
    else if arg = "--verbose" then programFlags json rest
    else if arg = "--" then some (json, rest)
    else match arg.toList with
      | '-' :: c :: more =>
        if (c :: more).all (· == 'v') then programFlags json rest else none
      | _ => some (json, arg :: rest)

/-- The options of a command and its arguments, as they are read. -/
structure Reading where
  files : List String
  text : Option String
  project : Option String
  inherited : Bool
  arguments : List String

/-- A reading with a value for an option; none if there is no such option. -/
def Reading.setOption? (r : Reading) (option value : String) : Option Reading :=
  if option = "--file" then some { r with files := r.files ++ [value] }
  else if option = "--source" then some { r with text := some value }
  else if option = "--project" then some { r with project := some value }
  else none

/-- A reading with a flag set; none if there is no such flag. -/
def Reading.setFlag? (r : Reading) (takesInherited : Bool) (flag : String) : Option Reading :=
  if !takesInherited then none
  else if flag = "--inherited" then some { r with inherited := true }
  else if flag = "--declared" then some { r with inherited := false }
  else none

/-- Whether an option takes a value. -/
def takesValue (option : String) : Bool := ["--file", "--source", "--project"].contains option

/-- Reads the arguments of a command. -/
def readArguments (takesInherited : Bool) (r : Reading) : List String → Option Reading
  | [] => some r
  | arg :: rest =>
    if arg = "--" then some { r with arguments := r.arguments ++ rest }
    else if takesValue arg then
      match rest with
      | [] => none
      | value :: more => (r.setOption? arg value).bind fun s => readArguments takesInherited s more
    else
      match arg.toList with
      | '-' :: _ :: _ =>
        let option := String.ofList (arg.toList.takeWhile (· != '='))
        if option.length < arg.length then
          (r.setOption? option (String.ofList (arg.toList.drop (option.length + 1)))).bind
            fun s => readArguments takesInherited s rest
        else (r.setFlag? takesInherited arg).bind fun s => readArguments takesInherited s rest
      | _ => readArguments takesInherited { r with arguments := r.arguments ++ [arg] } rest

/-- A reading of no arguments. -/
def Reading.start : Reading := ⟨[], none, none, true, []⟩

/-- The command of a name with what was read. -/
def commandOf? (name : String) (r : Reading) : Option Command :=
  match name, r.arguments with
  | "classes", [] => some .classes
  | "class", [identifier] => some (.showClass identifier r.inherited)
  | "property", [identifier, property] => some (.showProperty identifier property)
  | _, _ => none

/-- What the arguments ask for; none if they are used wrongly. -/
def Invocation.ofArguments? (args : List String) : Option Invocation :=
  match programFlags false args with
  | some (json, name :: rest) => do
    let r ← readArguments (name == "class") Reading.start rest
    let command ← commandOf? name r
    return ⟨json, command, r.files, r.text, r.project⟩
  | _ => none

/-- Whether a path is written as that of a directory. -/
def isWrittenAsDirectory (path : String) : Bool :=
  path.endsWith "/" || path.endsWith "/." || path == "."

/-- Whether there is a file at a path as it is written. -/
def isGivenFile (t : FileTree) (path : String) : Bool :=
  !path.isEmpty && !isWrittenAsDirectory path && t.isFile (Path.ofString path)

/-- Whether there is a directory at a path as it is written. -/
def isGivenDirectory (t : FileTree) (path : String) : Bool :=
  !path.isEmpty && (t.directory? (Path.ofString path)).isSome

/-- Whether all paths lead to what they should. -/
def Sources.areThere (s : Sources) (t : FileTree) : Bool :=
  s.files.all (isGivenFile t) && ((s.project.map (isGivenDirectory t)).getD true)

end StaticReflection.CommandLine
