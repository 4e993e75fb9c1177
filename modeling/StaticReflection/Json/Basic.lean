import StaticReflection.Text.Basic

/-!
# JSON values

A JSON value as read from a configuration file or written as a report. The
members of an object keep their order; `Json.sortKeys` puts the members of every
object in the order of their names, and `Json.report` builds an object already
in that order.
-/

namespace StaticReflection

/-- A JSON value. -/
inductive Json where
  | null
  | bool (b : Bool)
  | int (n : Int)
  | float (x : Float)
  | text (t : Text)
  | array (items : List Json)
  | object (members : List (Text × Json))

instance : Inhabited Json := ⟨.null⟩

namespace Json

/-- The text of a string. -/
def ofString (s : String) : Json := .text (Text.ofString s)

/-- The text of a string, null if there is none. -/
def ofString? : Option String → Json
  | some s => ofString s
  | none => .null

/-- The members with one at a name replaced, or put at the end. -/
def put {α : Type} (name : Text) (value : α) : List (Text × α) → List (Text × α)
  | [] => [(name, value)]
  | (n, v) :: rest => if n = name then (n, value) :: rest else (n, v) :: put name value rest

/-- The members in the order of their names. -/
def sortMembers {α : Type} (members : List (Text × α)) : List (Text × α) :=
  members.mergeSort fun a b => !b.1.before a.1

mutual

/-- The value with the members of every object in the order of their names. -/
def sortKeys : Json → Json
  | .array items => .array (sortItems items)
  | .object members => .object (sortMembers (sortValues members))
  | v => v

/-- The items with their objects sorted. -/
def sortItems : List Json → List Json
  | [] => []
  | v :: rest => sortKeys v :: sortItems rest

/-- The members with the objects in their values sorted. -/
def sortValues : List (Text × Json) → List (Text × Json)
  | [] => []
  | (n, v) :: rest => (n, sortKeys v) :: sortValues rest

end

/-- An object with the given members, in the order of their names. -/
def report (members : List (String × Json)) : Json :=
  .object (sortMembers (members.map fun (n, v) => (Text.ofString n, v)))

/-- The member of an object with this name. -/
def member? (v : Json) (name : String) : Option Json :=
  match v with
  | .object members => members.lookup (Text.ofString name)
  | _ => none

end Json

end StaticReflection
