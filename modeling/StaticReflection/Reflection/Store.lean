import StaticReflection.Locating.Locator
import StaticReflection.Reflection.ReflectedClass

/-!
# The store

What a reflector keeps between queries: the classes it has found by key, the
sources it has parsed, the properties of the classes whose properties were asked
for, and for single properties a changed visibility and a known default. During
a query it also holds the constants whose values are being folded.

A query is an outcome and the store after it, on failure too: what was learned
before the failure stays. Only the constants being folded are put back to what
they were, by `Query.whileFolding`.
-/

namespace StaticReflection

/-- A class by key and the name of one of its properties. -/
abbrev PropertyKey := String × String

/-- A class by key and the name of one of its constants. -/
abbrev ConstantKey := String × String

/-- What a reflector keeps. -/
structure Store where
  world : World
  classes : List (String × ReflectedClass)
  parsed : List ((String × String) × ParsedSource)
  declared : List (String × List PropertyDeclaration)
  visibilities : List (PropertyKey × Visibility)
  defaults : List (PropertyKey × Value)
  /-- The constants whose values are being folded, the innermost first. -/
  folding : List ConstantKey

/-- A query: its outcome, and the store after it. -/
abbrev Query (α : Type) := Folding Store α

namespace Store

/-- A store in which nothing has been asked yet. -/
def ofWorld (w : World) : Store := ⟨w, [], [], [], [], [], []⟩

/-- The texts that the locators and files of a world hold. -/
def texts (w : World) : List String :=
  w.locators.flatMap Locator.texts
  ++ w.files.files.map fun (_, bytes) => String.ofList (Lines.unify (Utf8.decodeFrom none bytes))

/-- The size of the class-likes that a query may come upon: those already known,
and those of all texts. There are no more classes than that, and no more
constants in them. -/
def extent (s : Store) : Nat :=
  Node.sizes (s.classes.map fun (_, c) => c.node)
    + Node.sizes ((texts s.world).flatMap fun text =>
        (ClassLike.all (s.world.trees.parse text "")).map (·.node))

/-- How deep references between classes can go before they repeat. -/
def depth (s : Store) : Nat := (s.extent + 2) * (s.extent + 2)

/-- The store in which one more constant is being folded. -/
def enter (s : Store) (k : ConstantKey) : Store := { s with folding := k :: s.folding }

/-- The store in which a constant is no longer being folded. -/
def leave (s : Store) (k : ConstantKey) : Store := { s with folding := s.folding.erase k }

end Store

namespace Query

/-- A step of locating as a query. -/
def locating {α : Type} (step : Locating α) : Query α := fun s =>
  let (outcome, w) := step.run s.world
  (outcome, { s with world := w })

/-- An outcome that leaves the store alone. -/
def lift {α : Type} (o : Except Failure α) : Query α := ExceptT.mk (pure o)

/-- A failure because a query needs its own answer. -/
def endless {α : Type} : Query α := throw (.fault .endlessRecursion)

/-- Records a warning. -/
def warn (message : String) : Query Unit := locating (World.warn [message])

/-- How deep references between classes can go before they repeat. -/
def depth : Query Nat := do return (← get).depth

/-- A query during which a constant is being folded, until the query has an outcome,
whatever it is; another failure if the constant is being folded already. -/
def whileFolding {α : Type} (k : ConstantKey) (again : Failure) (q : Query α) : Query α := do
  if (← get).folding.contains k then throw again
  modify (·.enter k)
  try q finally modify (·.leave k)

end Query

end StaticReflection
