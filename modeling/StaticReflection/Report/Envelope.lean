import StaticReflection.Failure
import StaticReflection.Json.Printer

/-!
# Reports in JSON

A report of a command is an object that names its own format and the version of
the program, with the command, a summary, and what the command has found. A
member of the payload takes the place of one of the same name; the command and
the summary cannot be replaced.
-/

namespace StaticReflection.Report

/-- The version of the program. -/
def version : String := "0.3.0"

/-- The name of the report format. -/
def formatName : String := "mirrorphp-envelope-v1"

/-- The version of the report format. -/
def formatVersion : String := "1.0.0"

/-- The members that a payload cannot have. -/
def reservedNames : List String := ["command", "summary"]

/-- The report of a command; the objects in its payload keep the order they have. -/
def envelope (command : Text) (summary : Json) (payload : List (Text × Json)) :
    Except Failure Json :=
  if payload.any fun (n, _) => reservedNames.any fun r => Text.ofString r = n then
    .error (.fault .reservedMember)
  else
    let members : List (Text × Json) := [
      (Text.ofString "schema", Json.ofString formatName),
      (Text.ofString "schema_version", Json.ofString formatVersion),
      (Text.ofString "command", .text command),
      (Text.ofString "version", Json.ofString version),
      (Text.ofString "summary", summary)]
    .ok (.object (Json.sortMembers (payload.foldl (fun acc (n, v) => Json.put n v acc) members)))

/-- The text of the report of a command, all objects in it in order. -/
def envelopeText (command : Text) (summary : Json) (payload : List (Text × Json)) :
    Except Failure String := do
  return (← envelope command summary payload).sortKeys.render

end StaticReflection.Report
