import StaticReflection.Reflection.Store

/-!
# Finding classes

`Reflector.reflect` finds the class-like with a name: one that was found before,
or the first in the sources that the locators offer, asked one after the other
until one declares it. What is found is kept under its key and stays; a search
that fails keeps nothing under the key it was for. A text is parsed once for each
origin it has.
-/

namespace StaticReflection.Reflector

/-- The syntax tree of a located source, parsed when it is first needed. -/
def parse (s : LocatedSource) : Query ParsedSource := do
  match (← get).parsed.lookup (s.origin, s.text) with
  | some p => return p
  | none => do
    let p ← Query.locating (World.parse s.text s.origin)
    modify fun store => { store with parsed := store.parsed ++ [((s.origin, s.text), p)] }
    return p

/-- The class kept under the key of one that was found, which is kept if none is. -/
def keep (c : ReflectedClass) : Query ReflectedClass := do
  match (← get).classes.lookup c.key with
  | some known => return known
  | none => do
    modify fun store => { store with classes := store.classes ++ [(c.key, c)] }
    return c

/-- The first class-like of a source with a key. -/
def findIn (p : ParsedSource) (key : String) : Option ReflectedClass :=
  ((ClassLike.all p).find? fun c => c.key == key).map fun c => ⟨c, p⟩

/-- The class with a key in the sources that some locators offer for an identifier. -/
def search (key identifier : String) : List Nat → Query (Option ReflectedClass)
  | [] => return none
  | i :: rest => do
    match ← Query.locating (World.locateAt i identifier) with
    | none => search key identifier rest
    | some located => do
      let p ← parse located
      match findIn p key with
      | some c => return some (← keep c)
      | none => search key identifier rest

/-- The class-like that an identifier names. -/
def reflect (identifier : String) : Query ReflectedClass := do
  let key := Identifier.normalize identifier
  if key.isEmpty then throw (.emptyIdentifier identifier)
  match (← get).classes.lookup key with
  | some known => return known
  | none => do
    let positions ← Query.locating World.positions
    match ← search key (Identifier.trimmed identifier) positions with
    | some c => return c
    | none => throw (.classNotFound identifier)

/-- Whether an identifier names a class-like. -/
def hasClass (identifier : String) : Query Bool :=
  tryCatch (do let _ ← reflect identifier; return true) fun f =>
    if f.isNotFound then return false else throw f

/-- The class-likes of a source, each under its key. -/
def keepAll (p : ParsedSource) : Query (List ReflectedClass) :=
  (ClassLike.all p).mapM fun c => keep ⟨c, p⟩

/-- The class-likes of some sources, fetched one after the other. -/
def listSupplies : List Supply → Query (List ReflectedClass)
  | [] => return []
  | s :: rest => do
    let located ← Query.locating (World.fetch none s)
    let found ← keepAll (← parse located)
    return found ++ (← listSupplies rest)

/-- The class-likes of the sources that some locators list. -/
def listLocators : List Nat → Query (List ReflectedClass)
  | [] => return []
  | i :: rest => do
    let found ← listSupplies (← Query.locating (World.supplies i))
    return found ++ (← listLocators rest)

/-- All class-likes of the sources that can be listed, in source order. -/
def allClasses : Query (List ReflectedClass) := do
  listLocators (← Query.locating World.positions)

/-- How many sources were parsed so far. -/
def parseCount : Query Nat := do return (← get).parsed.length

/-! ## Ancestors -/

/-- The parent of a class. -/
def parent (c : ReflectedClass) : Query (Option ReflectedClass) := do
  match c.parentName? with
  | none => return none
  | some name => return some (← reflect name)

/-- Visits a class and its ancestors, nearest first, as long as the visit asks to
go on; a class that comes up again is a failure. The class that the visit began
with gives the failure its name. -/
def climb {α : Type} (origin : String) (visit : α → ReflectedClass → Query (Bool × α)) :
    Nat → List String → α → ReflectedClass → Query α
  | 0, _, _, _ => throw (.circularInheritance origin)
  | fuel + 1, seen, a, c => do
    -- before the visit, so a class is visited once at most
    if seen.contains c.key then throw (.circularInheritance origin)
    let (goesOn, b) ← visit a c
    if !goesOn then return b
    match ← parent c with
    | none => return b
    | some p => climb origin visit fuel (c.key :: seen) b p

/-- Visits a class and its ancestors from the start. -/
def climbFrom {α : Type} (c : ReflectedClass) (a : α)
    (visit : α → ReflectedClass → Query (Bool × α)) : Query α := do
  climb c.name visit (← Query.depth) [] a c

/-- The names of a class's ancestors, nearest first. -/
def parentNames (c : ReflectedClass) : Query (List String) := do
  let names ← climbFrom c [] fun acc d => return (true, acc ++ [d.name])
  return names.drop 1

end StaticReflection.Reflector
