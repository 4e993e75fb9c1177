import StaticReflection.DocBlock.Comment
import StaticReflection.DocBlock.Type
import StaticReflection.Reflection.Constants
import StaticReflection.Value.Export

/-!
# Facts of a property

Everything that is known of a property in one record. A default that is no
constant expression is part of the record as the message that says why; any other
failure is the failure of the whole.
-/

namespace StaticReflection

namespace Property

/-- What the doc comment of a property says. -/
def docBlock (p : Property) : DocBlock := DocBlock.ofComment (some p.declaration.docComment)

/-- The type that the doc comment gives a property, as its members are written. -/
def docTypeTexts (p : Property) : List String := DocType.split p.docBlock.varValue?

/-- The types that the doc comment gives a property. -/
def docTypes (p : Property) : List DocType := DocType.resolveAll p.docBlock.varValue?

end Property

/-- What is known of a property. -/
structure PropertyFacts where
  name : String
  className : String
  modifiers : Nat
  isDefault : Bool
  isPromoted : Bool
  typeText : Option String
  hasDefault : Bool
  docComment : String
  docTypes : List String
  span : Span
  display : String
  default : Except String Value

namespace PropertyFacts

/-- The default value of a property, or why it is no constant. -/
def defaultOf (p : Property) : Query (Except String Value) :=
  tryCatch (do return .ok (← Reflector.defaultValue p)) fun f =>
    if f.isUnfoldable then return .error f.message else throw f

/-- What is known of a property. -/
def of (p : Property) : Query PropertyFacts := do
  let c ← p.declaringClass
  let modifiers ← p.modifiers
  let display ← p.display
  let default ← defaultOf p
  return {
    name := p.name, className := c.name, modifiers, isDefault := p.isDefault
    isPromoted := p.declaration.isPromoted, typeText := p.declaration.typeText
    hasDefault := p.hasDefault, docComment := p.declaration.docComment
    docTypes := p.docTypeTexts, span := p.declaration.span, display, default }

/-- The facts as the members of an object, given how a default value is written. -/
def members (f : PropertyFacts) (write : Value → Except Failure Json) :
    Except Failure (List (String × Json)) := do
  let default ← match f.default with
    | .ok v => do pure [("default_value", ← write v)]
    | .error message => do
      pure [("default_value", ← write .null), ("default_value_error", Json.ofString message)]
  return [
    ("name", .ofString f.name),
    ("declaring_class", .ofString f.className),
    ("modifiers", .int f.modifiers),
    ("modifier_names", .array ((Modifier.names f.modifiers).map .ofString)),
    ("is_default", .bool f.isDefault),
    ("is_promoted", .bool f.isPromoted),
    ("type", .ofString? f.typeText),
    ("has_default_value", .bool f.hasDefault),
    ("doc_comment", .ofString f.docComment),
    ("doc_block_types", .array (f.docTypes.map .ofString)),
    ("start_line", .int f.span.startLine),
    ("end_line", .int f.span.endLine),
    ("display", .ofString f.display)] ++ default

end PropertyFacts

end StaticReflection
