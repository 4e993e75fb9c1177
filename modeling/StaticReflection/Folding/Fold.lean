import StaticReflection.Folding.Constants
import StaticReflection.Folding.Literal
import StaticReflection.Syntax.Source

/-!
# Folding constant expressions

`Folder.fold` gives the value of an expression's syntax tree: literals, arrays,
operators on foldable operands, built-in and magic constants, and class
constants. Nothing is executed; a variable, a call or an object creation has no
value (`Unfoldable.notConstant`).

Class constants are the folder's to resolve, and resolving one may change a
state: `Folding σ` is an outcome together with the state after it, on success
and on failure alike.
-/

namespace StaticReflection

/-- A step of folding: an outcome, and the state after it. -/
abbrev Folding (σ α : Type) := ExceptT Failure (StateM σ) α

namespace Folding

/-- An outcome that leaves the state alone. -/
def lift {σ α : Type} (o : Outcome α) : Folding σ α := ExceptT.mk (pure o)

/-- A failure because of an expression that is no constant. -/
def unfoldable {σ α : Type} (reason : Unfoldable) : Folding σ α := throw (.unfoldable reason)

/-- A failure because a syntax node lacks a child. -/
def missingChild {σ α : Type} : Folding σ α := throw (.fault .missingChild)

end Folding

/-- What an expression is folded with: the text of a node, the resolver of class
constants if there is one, and the values of magic constants by their names in
upper case. -/
structure Folder (σ : Type) where
  text : Node → String
  classConstant : Option (String → String → Folding σ Value)
  magic : List (String × Value)

/-- The forms of expressions that can have a value. -/
inductive ExprForm where
  | integer
  | float
  | truth
  | null
  | string
  | encapsed
  | heredoc
  | nowdoc
  | parenthesized
  | array
  | unary
  | binary
  | conditional
  | name
  | classConstant
  deriving DecidableEq

/-- The form of an expression of a kind. -/
def ExprForm.ofKind? : String → Option ExprForm
  | "integer" => some .integer
  | "float" => some .float
  | "boolean" => some .truth
  | "null" => some .null
  | "string" => some .string
  | "encapsed_string" => some .encapsed
  | "heredoc" => some .heredoc
  | "nowdoc" => some .nowdoc
  | "parenthesized_expression" => some .parenthesized
  | "array_creation_expression" => some .array
  | "unary_op_expression" => some .unary
  | "binary_expression" => some .binary
  | "conditional_expression" => some .conditional
  | "name" => some .name
  | "qualified_name" => some .name
  | "magic_constant" => some .name
  | "class_constant_access_expression" => some .classConstant
  | _ => none

namespace Node

/-- The children of a node, each known to be one. -/
def subnodes (n : Node) : List { c : Node // c ∈ n.children } := n.children.attach

/-- The named children of a node, each known to be a child. -/
def namedSubnodes (n : Node) : List { c : Node // c ∈ n.children } :=
  n.subnodes.filter (·.val.isNamed)

/-- The first child in a field, known to be a child. -/
def subnodeInField? (n : Node) (field : String) : Option { c : Node // c ∈ n.children } :=
  n.subnodes.find? fun c => c.val.field == some field

/-- What an array element spreads: its last named child, or what that unpacks. -/
def spreadTarget? (n : Node) : Option { c : Node // c.size < n.size } :=
  match n.namedSubnodes.getLast? with
  | none => none
  | some ⟨c, hc⟩ =>
    if c.kind = "variadic_unpacking" then
      match c.namedSubnodes.getLast? with
      | none => none
      | some ⟨d, hd⟩ => some ⟨d, Nat.lt_trans (size_lt_of_mem hd) (size_lt_of_mem hc)⟩
    else some ⟨c, size_lt_of_mem hc⟩

/-- Whether an array element spreads an array. -/
def isSpread (n : Node) : Bool :=
  n.children.any (·.kind == "...")
    || (n.namedChildren.head?.map fun c => c.kind == "variadic_unpacking").getD false

/-- The elements of an array expression. -/
def arrayElements (n : Node) : List Node :=
  n.namedChildren.filter (·.kind == "array_element_initializer")

theorem sizes_arrayElements_lt (n : Node) : sizes n.arrayElements < n.size :=
  Nat.lt_of_le_of_lt (sizes_filter_le _ _) (sizes_named_lt n)

/-- Kinds of the plain parts of a string with interpolation. -/
def isStringPart (kind : String) : Bool :=
  ["string_content", "string_value", "escape_sequence", "heredoc_start",
    "heredoc_end"].contains kind

/-- Kinds of nodes that hold the parts of a heredoc. -/
def isHeredocBody (kind : String) : Bool := ["heredoc_body", "nowdoc_body"].contains kind

mutual

/-- The expressions that a part of a string interpolates. -/
def interpolated : Node → List Node
  | ⟨kind, start, stop, field, isNamed, isMissing, children⟩ =>
    if isStringPart kind then []
    else if isHeredocBody kind then interpolatedParts children
    else [⟨kind, start, stop, field, isNamed, isMissing, children⟩]

/-- The expressions that the named parts of a string interpolate, in order. -/
def interpolatedParts : List Node → List Node
  | [] => []
  | c :: rest => (if c.isNamed then interpolated c else []) ++ interpolatedParts rest

end

/-- Nothing is interpolated in a plain part of a string, nor in a heredoc's body of such. -/
theorem interpolated_eq_nil_iff {n : Node} : n.interpolated = [] ↔ isStringPart n.kind = true
    ∨ isHeredocBody n.kind = true ∧ interpolatedParts n.children = [] := by
  obtain ⟨kind, start, stop, field, isNamed, isMissing, children⟩ := n
  rw [interpolated]
  by_cases hpart : isStringPart kind = true
  · rw [if_pos hpart]
    exact iff_of_true rfl (.inl hpart)
  · rw [if_neg hpart]
    by_cases hbody : isHeredocBody kind = true
    · rw [if_pos hbody]
      exact ⟨fun h => .inr ⟨hbody, h⟩, fun h => (h.resolve_left hpart).2⟩
    · rw [if_neg hbody]
      exact iff_of_false (List.cons_ne_nil _ _) fun h => hbody (h.resolve_left hpart).1

theorem interpolatedParts_eq_nil_iff {cs : List Node} :
    interpolatedParts cs = [] ↔ ∀ c ∈ cs, c.isNamed = true → c.interpolated = [] := by
  induction cs with
  | nil => exact ⟨fun _ c hc => absurd hc List.not_mem_nil, fun _ => by rw [interpolatedParts]⟩
  | cons d ds ih =>
    rw [interpolatedParts, List.append_eq_nil_iff, ih, List.forall_mem_cons]
    refine and_congr_left fun _ => ?_
    by_cases hd : d.isNamed = true
    · rw [if_pos hd]
      exact ⟨fun h _ => h, fun h => h hd⟩
    · rw [if_neg hd]
      exact ⟨fun _ h => absurd h hd, fun _ => rfl⟩

end Node

namespace Value

/-- The value of a unary operator on an operand, if there is such an operator. -/
def applyUnary? (operator : String) (v : Value) : Option (Outcome Value) :=
  if operator = "-" then some (do
    match ← v.number with
    | .int n => ofIntResult (-n)
    | .float x => return .float (-x))
  else if operator = "+" then some v.toNumber
  else if operator = "~" then some (do return .int (-(← v.toInt) - 1))
  else if operator = "!" then some (.ok (.bool (!v.truthy)))
  else if operator = "@" then some (.ok v)
  else none

end Value

/-- Whether an operator reports the fault, instead of letting it through. -/
def Fault.isArithmetic : Fault → Bool
  | .incomparable .. => true
  | .integerTooLarge => true
  | .quotientTooLarge => true
  | .powerTooLarge => true
  | .complexPowerTooLarge => true
  | .tooManyDigits _ => true
  | .tooLongToWrite => true
  | _ => false

namespace Folder

variable {σ : Type} (F : Folder σ)

/-- The text of a name without the backslashes it begins with. -/
def bareName (name : String) : String := String.ofList (name.toList.dropWhile (· == '\\'))

/-- The value of a constant by its name as written. -/
def namedConstant (written : String) : Outcome Value :=
  let name := bareName written
  if name.toList.contains '\\' then Outcome.unfoldable (.unknownConstant name)
  else match BuiltinConstants.literal? (LetterCase.lower name) with
    | some v => .ok v
    | none =>
      match (if name.startsWith "__" then F.magic.lookup (LetterCase.upper name) else none) with
      | some v => .ok v
      | none =>
        match BuiltinConstants.value? name with
        | some v => .ok v
        | none => Outcome.unfoldable (.unknownConstant name)

/-- A string in which nothing is interpolated; otherwise the last expression that is. -/
def plainString (n : Node) : Outcome Unit :=
  match (Node.interpolatedParts n.children).getLast? with
  | some c => Outcome.unfoldable (.interpolated c.kind (F.text c))
  | none => .ok ()

/-- The value of a double-quoted string. -/
def encapsed (n : Node) : Outcome Value := do
  F.plainString n
  return .text (← Literal.unescapeDouble (Literal.inner (Literal.dropBinaryMark (F.text n).toList)))

/-- The value of a string literal, whichever quotes it has. -/
def string (n : Node) : Outcome Value :=
  match Literal.dropBinaryMark (F.text n).toList with
  | '"' :: _ => F.encapsed n
  | cs => .ok (Value.ofString (String.ofList (Literal.unescapeSingle (Literal.inner cs))))

/-- The value of a heredoc. -/
def heredoc (n : Node) : Outcome Value := do
  F.plainString n
  return .text (← Literal.unescapeDouble (Literal.heredocBody (F.text n).toList))

/-- The value of a nowdoc. -/
def nowdoc (n : Node) : Outcome Value :=
  .ok (Value.ofString (String.ofList (Literal.heredocBody (F.text n).toList)))

/-- The value of a class constant. -/
def classConstantAccess (n : Node) : Folding σ Value :=
  match n.namedChildren with
  | scope :: constant :: rest =>
    let scopeText := F.text scope
    let constantText := F.text ((constant :: rest).getLast?.getD constant)
    match F.classConstant with
    | none => Folding.unfoldable (.noClassContext scopeText constantText n.kind)
    | some resolve => resolve scopeText constantText
  | _ => Folding.unfoldable (.malformedAccess n.kind)

/-- The value of an operator on folded operands; a fault of arithmetic is
reported as one of the expression. -/
def applyBinary (spelling nodeType : String) (operator : BinaryOperator) (a b : Value) :
    Outcome Value :=
  match Value.apply operator a b with
  | .error (.fault cause) =>
    if cause.isArithmetic then Outcome.unfoldable (.inapplicable spelling cause nodeType)
    else .error (.fault cause)
  | o => o

mutual

/-- The value of an expression. -/
def fold (n : Node) : Folding σ Value :=
  match ExprForm.ofKind? n.kind with
  | none => Folding.unfoldable (.notConstant n.kind (F.text n))
  | some .integer => Folding.lift (Literal.integer (F.text n))
  | some .float => Folding.lift (Literal.float (F.text n))
  | some .truth => pure (.bool (LetterCase.lower (F.text n) == "true"))
  | some .null => pure .null
  | some .string => Folding.lift (F.string n)
  | some .encapsed => Folding.lift (F.encapsed n)
  | some .heredoc => Folding.lift (F.heredoc n)
  | some .nowdoc => Folding.lift (F.nowdoc n)
  | some .name => Folding.lift (F.namedConstant (F.text n))
  | some .classConstant => F.classConstantAccess n
  | some .parenthesized =>
    match n.namedSubnodes.head? with
    | none => Folding.missingChild
    | some ⟨c, _⟩ => fold c
  | some .array => do
    let built ← foldElements n.arrayElements Accumulator.empty
    return built.value
  | some .unary =>
    match n.subnodeInField? "operator" <|> n.subnodes.head?, n.namedSubnodes.getLast? with
    | some ⟨operator, _⟩, some ⟨c, _⟩ => do
      let v ← fold c
      match Value.applyUnary? (F.text operator) v with
      | some o => Folding.lift o
      | none => Folding.unfoldable (.unaryOperator (F.text operator) n.kind)
    | _, _ => Folding.missingChild
  | some .binary =>
    match n.subnodeInField? "left" <|> n.subnodes.head?,
      n.subnodeInField? "right" <|> n.subnodes.getLast?,
      n.subnodeInField? "operator" <|> n.subnodes[1]? with
    | some ⟨left, _⟩, some ⟨right, _⟩, some ⟨operator, _⟩ =>
      let spelling := LetterCase.lower (F.text operator)
      -- the one operator whose right operand may be left out
      if spelling = "??" then do
        let v ← fold left
        if v.isNull then fold right else return v
      else
        match BinaryOperator.ofSpelling? spelling with
        | none => Folding.unfoldable (.binaryOperator spelling n.kind)
        | some op => do
          let a ← fold left
          let b ← fold right
          Folding.lift (applyBinary spelling n.kind op a b)
    | _, _, _ => Folding.missingChild
  | some .conditional =>
    match n.subnodeInField? "condition" <|> n.namedSubnodes.head?,
      n.subnodeInField? "alternative" <|> n.namedSubnodes.getLast? with
    | some ⟨condition, _⟩, some ⟨alternative, _⟩ => do
      let v ← fold condition
      if v.truthy then
        match n.subnodeInField? "body" with
        | some ⟨body, _⟩ => fold body
        | none => return v
      else fold alternative
    | _, _ => Folding.missingChild
termination_by n.size
decreasing_by
  all_goals first
    | exact Node.size_lt_of_mem (by assumption)
    | exact Node.sizes_arrayElements_lt n

/-- The array with the elements of an array expression added in order. -/
def foldElements (es : List Node) (acc : Accumulator) : Folding σ Accumulator :=
  match es with
  | [] => return acc
  | e :: rest =>
    if e.isSpread then
      match e.spreadTarget? with
      | none => Folding.missingChild
      | some ⟨target, _⟩ => do
        let v ← fold target
        let acc ← Folding.lift (acc.extend v)
        foldElements rest acc
    else if e.children.any (·.kind == "=>") then
      match e.namedSubnodes.head?, e.namedSubnodes.getLast? with
      | some ⟨key, _⟩, some ⟨item, _⟩ => do
        let k ← fold key
        let v ← fold item
        let acc ← Folding.lift (acc.set k v)
        foldElements rest acc
      | _, _ => Folding.missingChild
    else if e.children.any (·.kind == "&") then Folding.unfoldable (.byReference e.kind)
    else
      match e.namedSubnodes.head? with
      | none => Folding.missingChild
      | some ⟨item, _⟩ => do
        let v ← fold item
        foldElements rest (acc.append v)
termination_by Node.sizes es
decreasing_by
  all_goals simp only [Node.sizes]
  all_goals first
    | exact Nat.lt_of_lt_of_le (Node.size_lt_of_mem (by assumption)) (Nat.le_add_right _ _)
    | exact Nat.lt_of_lt_of_le (by assumption) (Nat.le_add_right _ _)
    | exact Nat.lt_add_of_pos_left (Node.size_pos e)

end

end Folder

end StaticReflection
