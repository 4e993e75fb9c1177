import StaticReflection.Reflection.Properties

/-!
# Class constants and default values

The value of a class constant is its folded expression, or that of the first
relative that has one: the parent first, then the interfaces, each with its own
relatives. A relative whose search fails is passed over. A constant whose value
is being folded already refers to itself and has none.

Folding and searching call each other. The store holds the constants whose values
are being folded, and each fold adds one that was not there; `searched` holds the
classes that the present search came through, and one that comes up again would
be searched without end.
-/

namespace StaticReflection.Reflector

/-- What constant expressions in a class are folded with. -/
def folder (c : ReflectedClass) (source : ParsedSource)
    (constant : String → String → Query Value) (magic : List (String × Value)) :
    Folder Store where
  text := source.text
  classConstant := some constant
  magic := [("__CLASS__", Value.ofString c.name),
    ("__NAMESPACE__", Value.ofString c.namespaceName)] ++ magic

/-- The first of some named classes that has a constant. -/
def firstRelative (valueIn : ReflectedClass → Query Value) (failure : Failure) :
    List String → Query Value
  | [] => throw failure
  | name :: rest =>
    tryCatch (do valueIn (← reflect name)) fun f =>
      if f.isNotFound || f.isUnfoldable then firstRelative valueIn failure rest else throw f

/-- Whether a constant's name asks for the name of its class. -/
def asksForName (constant : String) : Bool := LetterCase.lower constant == "class"

/-- The value of a constant of a class as it is referred to inside a class, given
how to find the value of a constant that a class has. -/
def resolveConstantWith (valueIn : ReflectedClass → String → Query Value) (c : ReflectedClass)
    (scope constant : String) : Query Value := do
  let finish (target : ReflectedClass) : Query Value :=
    if asksForName constant then return Value.ofString target.name
    else valueIn target constant
  let lowered := LetterCase.lower scope
  if lowered == "self" || lowered == "static" then finish c
  else if lowered == "parent" then
    match ← parent c with
    | some p => finish p
    | none => Folding.unfoldable (.noParent c.name constant)
  else do
    let className := c.resolveName scope
    -- the name of a class needs no class
    if asksForName constant then return Value.ofString className
    let target ← tryCatch (reflect className) fun f =>
      if f.isNotFound then Folding.unfoldable (.classNotLocated className scope constant)
      else throw f
    finish target

/-- The value of a constant of a class. -/
def constantWithin : Nat → List String → ReflectedClass → String → Query Value
  | 0, _, _, _ => Query.endless
  | fuel + 1, searched, c, name =>
    match c.constant? name with
    | some d =>
      let resolve := resolveConstantWith (constantWithin fuel []) c
      Query.whileFolding (c.key, name) (.unfoldable (.selfReference c.name name))
        ((folder c c.source resolve []).fold d.value)
    | none =>
      if searched.contains c.key then Query.endless
      else
        firstRelative (fun r => constantWithin fuel (c.key :: searched) r name)
          (.unfoldable (.constantNotLocated c.name name)) c.relatedNames

/-- The value of a constant of a class. -/
def constantValue (c : ReflectedClass) (name : String) : Query Value := do
  constantWithin (← Query.depth) [] c name

/-- The value of a constant of a class as it is referred to inside a class. -/
def resolveConstant (c : ReflectedClass) (scope constant : String) : Query Value :=
  resolveConstantWith constantValue c scope constant

/-- The magic constants in the default value of a property. -/
def defaultMagic (c : ReflectedClass) (e : Expression) : List (String × Value) := [
  ("__FILE__", Value.ofString (c.fileName?.getD "")),
  ("__DIR__", Value.ofString (c.directoryName?.getD "")),
  ("__LINE__", .int (e.source.source.startLine e.node))]

/-- The folded default value of a property; null if it has none. A property that
a class keeps is folded until it succeeds once. -/
def defaultValue (p : Property) : Query Value := do
  match p.declaration.default with
  | none => return .null
  | some e =>
    let store ← get
    match p.place?.bind fun k => store.defaults.lookup k with
    | some v => return v
    | none => do
      let c ← p.declaringClass
      let v ← (folder c e.source (resolveConstant c) (defaultMagic c e)).fold e.node
      match p.place? with
      | some k => modify fun s => { s with defaults := Property.putFront k v s.defaults }
      | none => pure ()
      return v

end StaticReflection.Reflector
