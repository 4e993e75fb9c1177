import StaticReflection.Reflection.Reflector

/-!
# Chains of locators

An aggregate asks its members in order, and a member may be an aggregate in turn. It
locates what the first member does that locates anything. Its candidates are those of all
members; a reflector draws them one after the other, and stops at the first source that
declares its class.
-/

namespace StaticReflection

/-- The locator at a position, or an aggregate. -/
inductive Chain where
  | single (position : Nat)
  | aggregate (members : List Chain)

namespace Chain

mutual

/-- The positions of the locators that a chain asks, in order. -/
def positions : Chain → List Nat
  | .single i => [i]
  | .aggregate members => positionsOf members

/-- The positions of the locators that some chains ask. -/
def positionsOf : List Chain → List Nat
  | [] => []
  | m :: rest => m.positions ++ positionsOf rest

end

mutual

/-- The source that a chain offers for an identifier. -/
def locate (identifier : String) : Chain → Locating (Option LocatedSource)
  | .single i => World.locateAt i identifier
  | .aggregate members => locateFirst identifier members

/-- The source of the first of some chains that offers one. -/
def locateFirst (identifier : String) : List Chain → Locating (Option LocatedSource)
  | [] => return none
  | m :: rest => do
    match ← m.locate identifier with
    | some s => return some s
    | none => locateFirst identifier rest

end

mutual

/-- All sources that may declare an identifier, most preferred first. -/
def candidates (identifier : String) : Chain → Locating (List LocatedSource)
  | .single i => do return (← World.locateAt i identifier).toList
  | .aggregate members => candidatesOf identifier members

/-- The candidates of some chains, one chain after the other. -/
def candidatesOf (identifier : String) : List Chain → Locating (List LocatedSource)
  | [] => return []
  | m :: rest => do
    let here ← m.candidates identifier
    return here ++ (← candidatesOf identifier rest)

end

mutual

/-- The first answer of a visit to the candidates, each of which is located when the visit
comes to it. -/
def visit {α : Type} (identifier : String) (answer : LocatedSource → Query (Option α)) :
    Chain → Query (Option α)
  | .single i => do
    match ← Query.locating (World.locateAt i identifier) with
    | some s => answer s
    | none => return none
  | .aggregate members => visitEach identifier answer members

/-- The first answer of a visit to the candidates of some chains. -/
def visitEach {α : Type} (identifier : String) (answer : LocatedSource → Query (Option α)) :
    List Chain → Query (Option α)
  | [] => return none
  | m :: rest => do
    match ← m.visit identifier answer with
    | some a => return some a
    | none => visitEach identifier answer rest

end

/-- The first candidate. -/
def first (identifier : String) (chain : Chain) : Query (Option LocatedSource) :=
  chain.visit identifier fun s => return some s

/-- The class with a key in a source, which is kept. -/
def declaredIn (key : String) (s : LocatedSource) : Query (Option ReflectedClass) := do
  match Reflector.findIn (← Reflector.parse s) key with
  | some c => return some (← Reflector.keep c)
  | none => return none

/-- The class-like that an identifier names in the sources of a chain. -/
def reflect (chain : Chain) (identifier : String) : Query ReflectedClass := do
  let key := Identifier.normalize identifier
  if key.isEmpty then throw (.emptyIdentifier identifier)
  match (← get).classes.lookup key with
  | some known => return known
  | none => do
    match ← chain.visit (Identifier.trimmed identifier) (declaredIn key) with
    | some c => return c
    | none => throw (.classNotFound identifier)

end Chain

end StaticReflection
