import StaticReflection.CommandLine.Arguments
import StaticReflection.ExitCode
import StaticReflection.Report.Envelope
import StaticReflection.Report.Facts
import StaticReflection.Report.Text

/-!
# Commands

What the commands print: the class-likes of the given sources, one class with its
properties, or one property with all that is known of it; as text or as a JSON
report. Printing goes on until something fails; what was printed before stays.
-/

namespace StaticReflection.CommandLine

/-- A step of a command: its outcome, the store, and what was printed so far. -/
abbrev Printing (α : Type) := ExceptT Failure (StateM (Store × String)) α

namespace Printing

/-- A query as a step of a command. -/
def ask {α : Type} (q : Query α) : Printing α := fun (store, out) =>
  let (outcome, store) := q.run store
  (outcome, (store, out))

/-- An outcome as a step of a command. -/
def lift {α : Type} (o : Except Failure α) : Printing α := ExceptT.mk (pure o)

/-- Prints a text and ends the line; a text with a surrogate cannot be printed. -/
def echoText (t : Text) : Printing Unit := do
  match t.toString? with
  | some line => modify fun (store, out) => (store, out ++ line ++ "\n")
  | none => throw (.fault .unencodableOutput)

/-- Prints a string and ends the line. -/
def echo (line : String) : Printing Unit := echoText (Text.ofString line)

end Printing

open Printing

/-- The place of a class in its file. -/
def placeOf (c : ReflectedClass) : String := Report.location c.fileName? (some c.startLine)

/-- The members of a report, with their names as texts. -/
def payload (members : List (String × Json)) : List (Text × Json) :=
  members.map fun (n, v) => (Text.ofString n, v)

/-- Prints the JSON report of a command. -/
def echoReport (command : String) (summary members : List (String × Json)) : Printing Unit := do
  let name := Text.ofString command
  let report ← lift (Report.envelope name (Json.report summary) (payload members))
  echo report.render

/-! ## The commands -/

/-- A class in the report of all classes. -/
def classEntry (c : ReflectedClass) : Query Json := do
  let count := (← Reflector.immediateProperties c).length
  return Json.report [
    ("name", .ofString c.name), ("kind", .ofString c.classLike.kind.name),
    ("file", .ofString? c.fileName?), ("line", .int c.startLine), ("properties", .int count)]

/-- A class in the table of all classes. -/
def classRow (c : ReflectedClass) : Query (List Text) := do
  let count := (← Reflector.immediateProperties c).length
  return [c.classLike.kind.name, c.name, DecimalText.ofInt count, placeOf c].map Text.ofString

/-- Prints all class-likes of the sources. -/
def printClasses (json : Bool) : Printing Unit := do
  let found ← ask Reflector.allClasses
  if json then do
    let entries ← ask (found.mapM classEntry)
    echoReport "classes" [("classes", .int found.length)] [("classes", .array entries)]
  else do
    let rows ← ask (found.mapM classRow)
    let headers := ["kind", "name", "props", "location"].map Text.ofString
    echoText (← lift (Report.table headers rows 0))

/-- The facts of a property as an object of a report. -/
def factsJson (f : PropertyFacts) : Except Failure Json := do
  return Json.report (← f.members Value.toJson)

/-- The default of a property in a table. -/
def defaultCell (p : Property) : Query Text := do
  if !p.hasDefault then return Text.empty
  match ← PropertyFacts.defaultOf p with
  | .ok v => Query.lift v.exported
  | .error _ => return Text.ofString "<unfoldable>"

/-- The lines that a declaration covers. -/
def lineRange (span : Span) : String :=
  DecimalText.ofInt span.startLine ++ "-" ++ DecimalText.ofInt span.endLine

/-- A property in the table of a class. -/
def propertyRow (c : ReflectedClass) (p : Property) : Query (List Text) := do
  let owner := (← p.declaringClass).name
  let modifiers := Modifier.names (← p.modifiers)
  let default ← defaultCell p
  return [Text.ofString ("$" ++ p.name), Text.ofString (String.intercalate " " modifiers), default,
    Text.ofString (String.intercalate "|" p.docTypeTexts),
    Text.ofString (lineRange p.declaration.span),
    Text.ofString (if owner == c.name then "" else owner)]

/-- Prints a class as a JSON report. -/
def reportClass (c : ReflectedClass) (ps : List Property) : Printing Unit := do
  let facts ← lift ((← ask (ps.mapM PropertyFacts.of)).mapM factsJson)
  echoReport "class" [("properties", .int ps.length)] [
    ("name", .ofString c.name), ("kind", .ofString c.classLike.kind.name),
    ("parent", .ofString? c.parentName?),
    ("interfaces", .array (c.interfaceNames.map .ofString)),
    ("file", .ofString? c.fileName?), ("start_line", .int c.startLine),
    ("end_line", .int c.endLine), ("properties", .array facts)]

/-- The first line about a class. -/
def classHeader (c : ReflectedClass) : String :=
  c.classLike.kind.name ++ " " ++ c.name
    ++ match c.parentName?.filter (!·.isEmpty) with
      | some parentName => " extends " ++ parentName
      | none => ""

/-- The titles of the columns of a class's table. -/
def propertyHeaders : List Text :=
  ["name", "modifiers", "default", "@var", "lines", "inherited from"].map Text.ofString

/-- Prints a class as text. -/
def tabulateClass (c : ReflectedClass) (ps : List Property) : Printing Unit := do
  echo (classHeader c)
  echo ("  " ++ placeOf c)
  let rows ← ask (ps.mapM (propertyRow c))
  echo ""
  let title := "Properties (" ++ DecimalText.ofInt rows.length ++ "):"
  let table ← lift (Report.table propertyHeaders rows 0)
  echoText (Report.titled (Text.ofString title) [table] 0)

/-- Prints a class and its properties. -/
def printClass (json : Bool) (identifier : String) (inherited : Bool) : Printing Unit := do
  let c ← ask (Reflector.reflect identifier)
  let ps ← ask (if inherited then Reflector.properties c else Reflector.immediateProperties c)
  if json then reportClass c ps else tabulateClass c ps

/-- Prints the facts of a property as text. -/
def tabulateProperty (f : PropertyFacts) : Printing Unit := do
  echo f.display
  echo ("  declared in  " ++ f.className)
  echo ("  modifiers    " ++ DecimalText.ofInt f.modifiers ++ " ("
    ++ String.intercalate " " (Modifier.names f.modifiers) ++ ")")
  match f.typeText.filter (!·.isEmpty) with
  | some type => echo ("  type         " ++ type)
  | none => pure ()
  match f.default with
  | .error message => echo ("  default      <unfoldable: " ++ message ++ ">")
  | .ok v =>
    if f.hasDefault then echoText (Text.ofString "  default      " ++ (← lift v.exported))
  if !f.docTypes.isEmpty then echo ("  @var         " ++ String.intercalate " | " f.docTypes)
  echo ("  lines        " ++ lineRange f.span)
  (Lines.split f.docComment).forM fun line => echo ("  | " ++ Blank.strip line)

/-- Prints all that is known of a property. -/
def printProperty (json : Bool) (identifier name : String) : Printing Unit := do
  let p ← ask (Reflector.propertyOf identifier name)
  let facts ← ask (PropertyFacts.of p)
  if json then do
    let members ← lift (facts.members Value.toJson)
    echoReport "property" [("name", .ofString facts.name)] members
  else tabulateProperty facts

/-- Prints what a command is to show. -/
def print (json : Bool) : Command → Printing Unit
  | .classes => printClasses json
  | .showClass identifier inherited => printClass json identifier inherited
  | .showProperty identifier name => printProperty json identifier name

/-! ## Running -/

/-- What running the program leaves: an exit code, what was printed, and a failure
that nothing reported. -/
structure Answer where
  exitCode : Nat
  output : String
  errors : String
  fault : Option Failure

/-- The answer to a wrong use. -/
def Answer.wrongUse : Answer := ⟨ExitCode.usage, "", "", none⟩

/-- The answer to a failure, after what was printed before it. -/
def Answer.ofFailure (output : String) (f : Failure) : Answer :=
  match f, f.kind? with
  | .badConfig e, _ => ⟨ExitCode.general, output, "Error: " ++ e.message ++ "\n", none⟩
  | _, some kind => ⟨kind.exitCode, output, "Error: " ++ f.message ++ "\n", none⟩
  | _, none => ⟨ExitCode.general, output, "", some f⟩

/-- The locators for given sources but the project. -/
def givenLocators (s : Sources) : List Locator :=
  s.files.map (fun file => .file (Path.ofString file))
    ++ ((s.text.filter (!·.isEmpty)).map fun text => .text text "<string>").toList

/-- The root of the project that a command looks in: the given one, or without any
source the nearest one from the working directory upwards. -/
def projectRoot? (s : Sources) (t : FileTree) : Option Path :=
  match s.project with
  | some root => some (Path.ofString root)
  | none =>
    if (givenLocators s).isEmpty then
      (ProjectConfig.rootAbove? t t.working).map fun place => ⟨"/", place⟩
    else none

/-- The answer to a command over given sources. -/
def Invocation.answer (i : Invocation) (t : FileTree) (devRequest : Option String) : Answer :=
  let given := givenLocators i.sources
  let root := projectRoot? i.sources t
  if !i.sources.areThere t || (given.isEmpty && root.isNone) then Answer.wrongUse
  else
    let project : Except Failure (List Locator) := match root with
      | none => .ok []
      | some path => do
        return [← Locator.ofProject t path (ProjectConfig.asksForDev devRequest)]
    match project with
    | .error f => Answer.ofFailure "" f
    | .ok more =>
      let (outcome, _, output) := (print i.json i.command).run
        (Store.ofWorld ⟨t, [], given ++ more, []⟩, "")
      match outcome with
      | .ok () => ⟨0, output, "", none⟩
      | .error f => Answer.ofFailure output f

/-- The answer to arguments, among files and with the environment's request for
development sections. -/
def run (args : List String) (t : FileTree) (devRequest : Option String) : Answer :=
  match Invocation.ofArguments? args with
  | none => Answer.wrongUse
  | some i => i.answer t devRequest

end StaticReflection.CommandLine
