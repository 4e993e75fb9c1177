import StaticReflection.Json.Basic
import StaticReflection.Reflection.Reflector

/-!
# Properties

The properties that a class has of its own are those of its body, then those its
constructor declares, then those of its traits in the order they are used; of
equal names the first counts. A trait that is used, directly or not, by itself
has no such list. With its ancestors' properties added, nearest first, the list
is that of all its properties.

A `Property` is a declaration and the class it is a property of. The visibility
of a property that a class keeps can be changed; one that was made by a caller is
nobody's, and keeps its own.
-/

namespace StaticReflection

/-- A property of a class. -/
structure Property where
  declaration : PropertyDeclaration
  /-- The full name of the class that has the property. -/
  className : String
  /-- Whether the property was found in a declaration, not made at run time. -/
  isDefault : Bool
  /-- Where the store keeps the property, if a class has it. -/
  place? : Option PropertyKey

namespace Property

/-- The property of a class with a declaration, kept with the class. -/
def ofClass (c : ReflectedClass) (d : PropertyDeclaration) : Property :=
  ⟨d, c.name, true, some (c.key, d.name)⟩

/-- A property of a class that the class does not keep. -/
def loose (c : ReflectedClass) (d : PropertyDeclaration) (isDefault : Bool) : Property :=
  ⟨d, c.name, isDefault, none⟩

/-- The name of a property. -/
def name (p : Property) : String := p.declaration.name

/-- How a property presents itself. -/
def label (p : Property) : String :=
  "<ReflectionProperty " ++ p.className ++ "::$" ++ p.name ++ ">"

/-- Whether a property has a default value. -/
def hasDefault (p : Property) : Bool := p.declaration.default.isSome

/-- The class that has a property. -/
def declaringClass (p : Property) : Query ReflectedClass := do
  let store ← get
  match p.place?.bind fun k => store.classes.lookup k.1 with
  | some c => return c
  | none => Reflector.reflect p.className

/-- The visibility of a property. -/
def visibility (p : Property) : Query Visibility := do
  let store ← get
  let changed := p.place?.bind fun k => store.visibilities.lookup k
  return changed.getD p.declaration.visibility

/-- The visibility that a number stands for; a number with a fraction part, a
truth value or anything else stands for none. -/
def visibilityOf? : Json → Option Visibility
  | .int n => Visibility.ofFlag? n
  | _ => none

/-- Pairs with a value under a key in front of any older one. -/
def putFront {α β : Type} [BEq α] (key : α) (value : β) (pairs : List (α × β)) : List (α × β) :=
  (key, value) :: pairs.filter fun p => !(p.1 == key)

/-- Changes the visibility of a property that a class keeps. -/
def setVisibility (p : Property) (value : Json) : Query Unit := do
  match visibilityOf? value with
  | none => throw .badVisibility
  | some v =>
    match p.place? with
    | some k => modify fun s => { s with visibilities := putFront k v s.visibilities }
    | none => return ()

/-- The bits of a property's modifiers. -/
def modifiers (p : Property) : Query Nat := do
  let v ← p.visibility
  return v.flag + (if p.declaration.isStatic then Modifier.staticFlag else 0)
    + (if p.declaration.isReadonly then Modifier.readonlyFlag else 0)

/-- The text of a property, as PHP shows it. -/
def display (p : Property) : Query String := do
  let v ← p.visibility
  let default := if p.isDefault && !p.declaration.isStatic then "<default> " else ""
  let static := if p.declaration.isStatic then "static " else ""
  return "Property [ " ++ default ++ v.name ++ " " ++ static ++ "$" ++ p.name ++ " ]"

end Property

namespace Reflector

/-- Whether a list of declarations has a name. -/
def declares (ds : List PropertyDeclaration) (name : String) : Bool := ds.any (·.name == name)

/-- A list of declarations with one more, which is left out with a warning if its
name is there already. -/
def addOwn (c : ReflectedClass) (ds : List PropertyDeclaration) (d : PropertyDeclaration) :
    Query (List PropertyDeclaration) := do
  if declares ds d.name then do
    Query.warn (c.name ++ " declares $" ++ d.name ++ " more than once; keeping the first")
    return ds
  else return ds ++ [d]

/-- The properties that the declaration of a class itself declares. -/
def ownProperties (c : ReflectedClass) : Query (List PropertyDeclaration) :=
  c.propertyNodes.foldlM (fun acc n => do
    (← Query.lift (PropertyDeclaration.ofNode c.source n)).foldlM (addOwn c) acc) []

/-- A list of declarations with those of another whose names it lacks. -/
def merge (ds more : List PropertyDeclaration) : List PropertyDeclaration :=
  more.foldl (fun acc d => if declares acc d.name then acc else acc ++ [d]) ds

/-- The properties that a class has of its own, given how to find those of a trait. -/
def gather (traitProperties : ReflectedClass → Query (List PropertyDeclaration))
    (c : ReflectedClass) : Query (List PropertyDeclaration) := do
  let own ← ownProperties c
  c.traitNames.foldlM (fun acc name => do
    let used ← reflect name
    return merge acc (← traitProperties used)) own

/-- The properties that a class has of its own, kept once they are known. The
classes whose properties are being gathered are given by key. -/
def declaredWithin : Nat → List String → ReflectedClass → Query (List PropertyDeclaration)
  | 0, _, _ => Query.endless
  | fuel + 1, active, c => do
    match (← get).declared.lookup c.key with
    | some ds => return ds
    | none => do
      if active.contains c.key then Query.endless
      -- what fails here is not kept, and is gathered anew when it is asked for again
      let ds ← gather (declaredWithin fuel (c.key :: active)) c
      modify fun s => { s with declared := s.declared ++ [(c.key, ds)] }
      return ds

/-- The properties that a class has of its own. -/
def declared (c : ReflectedClass) : Query (List PropertyDeclaration) := do
  declaredWithin (← Query.depth) [] c

/-- The properties that a class has of its own. -/
def immediateProperties (c : ReflectedClass) : Query (List Property) := do
  return (← declared c).map (Property.ofClass c)

/-- A list of properties with those of another whose names it lacks. -/
def shadow (ps more : List Property) : List Property :=
  more.foldl (fun acc p => if acc.any (·.name == p.name) then acc else acc ++ [p]) ps

/-- The properties of a class and its ancestors; nearer ones hide farther ones. -/
def properties (c : ReflectedClass) : Query (List Property) :=
  climbFrom c [] fun acc d => do return (true, shadow acc (← immediateProperties d))

/-- The property of a name that a class has, or its nearest ancestor that has one. -/
def property (c : ReflectedClass) (written : String) : Query Property := do
  let name := PropertyDeclaration.bareName written
  let found ← climbFrom c none fun _ d => do
    let here := (← immediateProperties d).find? fun p => p.name == name
    return (here.isNone, here)
  match found with
  | some p => return p
  | none => throw (.propertyNotFound c.name name)

/-- Whether a class or an ancestor has a property of a name. -/
def hasProperty (c : ReflectedClass) (name : String) : Query Bool :=
  tryCatch (do let _ ← property c name; return true) fun f =>
    if f.isNotFound then return false else throw f

/-! ## Properties by other routes -/

/-- The property of a name in a class given by its identifier. -/
def propertyOf (identifier name : String) : Query Property := do
  property (← reflect identifier) name

/-- The property of a name in a second reflection of a class, which keeps nothing:
what the class itself has is made anew, what its ancestors have is theirs. -/
def detachedProperty (c : ReflectedClass) (written : String) : Query Property := do
  let name := PropertyDeclaration.bareName written
  let found ← climbFrom c (none, true) fun (_, isFirst) d => do
    -- only the class itself is taken apart again, its ancestors are the kept ones
    let here ← if isFirst then do
        let ds ← gather (declaredWithin (← Query.depth) []) d
        pure (ds.map fun p => Property.loose d p true)
      else immediateProperties d
    let found := here.find? fun p => p.name == name
    return (found.isNone, (found, false))
  match found.1 with
  | some p => return p
  | none => throw (.propertyNotFound c.name name)

/-- An item by its position; a negative one counts from the end. -/
def itemAt? {α : Type} (items : List α) (position : Int) : Option α :=
  if 0 ≤ position then items[position.toNat]?
  else if items.length < (-position).toNat then none
  else items[items.length - (-position).toNat]?

/-- A property that a node of a class declares, by its position among those that
the node declares. No node at all is no property node either. -/
def propertyOfNode (c : ReflectedClass) (node : Option Sited) (position : Int)
    (isDefault : Bool) : Except Failure Property := do
  match node with
  | none => .error (.notAPropertyNode "NoneType")
  | some n =>
    let ds ← PropertyDeclaration.ofNode c.source n
    match itemAt? ds position with
    | some d => return Property.loose c d isDefault
    | none => .error (.noSuchPosition ds.length position)

end Reflector

end StaticReflection
