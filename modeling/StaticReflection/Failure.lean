import StaticReflection.Value.Basic
import StaticReflection.Text.Utf8

/-!
# Failures

Why a query has no answer. A `Failure` is a cause; its message, its kind and the
exit code of the command line follow from the cause. Three groups are kept
apart: what reflection reports (`Failure.kind?` has a kind), expressions that are
no constants (`Unfoldable`), and faults of the input that nothing along the way
reports (`Fault`), an endless recursion among them.
-/

namespace StaticReflection

/-- The kinds of reported failures. -/
inductive ErrorKind where
  | reflection
  | identifierNotFound
  | invalidNode
  | invalidArgument
  | unsupportedOperation
  | uncloneable
  | unfoldableExpression
  | circularReference
  | sourceAccess
  deriving DecidableEq

/-- A comparison that two values do not have. -/
inductive Comparison where
  | less
  | greater
  | lessOrEqual
  | greaterOrEqual
  deriving DecidableEq

/-- The sign of a comparison. -/
def Comparison.sign : Comparison → String
  | .less => "<"
  | .greater => ">"
  | .lessOrEqual => "<="
  | .greaterOrEqual => ">="

/-- A fault of the input that is not reported as a failure of reflection. -/
inductive Fault where
  /-- Two values that have no order were compared. -/
  | incomparable (comparison : Comparison) (left right : Value.Kind)
  /-- An integer is too large to become a double. -/
  | integerTooLarge
  /-- A quotient of integers is too large for a double. -/
  | quotientTooLarge
  /-- A power of doubles is out of range. -/
  | powerTooLarge
  /-- A power of a negative double is out of range off the real line. -/
  | complexPowerTooLarge
  /-- A NaN was used as an array key. -/
  | nanKey
  /-- An infinity was used as an array key. -/
  | infiniteKey
  /-- A decimal text has more digits than an integer may have. -/
  | tooManyDigits (count : Nat)
  /-- An integer has more digits than a text of it may have. -/
  | tooLongToWrite
  /-- The text of a number literal is no number. -/
  | malformedNumber
  /-- An escape names a code point beyond the last. -/
  | noSuchCodePoint
  /-- An escape names a number beyond any code point and any machine word. -/
  | hugeCodePoint
  /-- A syntax node lacks a child that it must have. -/
  | missingChild
  /-- Integer and text keys of one map cannot be sorted together. -/
  | unsortableKeys
  /-- A query needs its own answer. -/
  | endlessRecursion
  /-- A table has more columns than headers. -/
  | missingHeader
  /-- A report has a member whose name is reserved. -/
  | reservedMember
  /-- What should look files up cannot be asked. -/
  | notCallable
  /-- A configured directory is not a text. -/
  | directoryNotText
  /-- Output holds a surrogate, which no encoding has. -/
  | unencodableOutput
  /-- A configuration file is a directory. -/
  | configIsDirectory
  /-- An operand that is no array was treated as one. -/
  | notAnArray
  deriving DecidableEq

namespace Fault

/-- The wording of a fault where an operator reports it. -/
def message : Fault → String
  | .incomparable comparison left right =>
    Quoted.encodeString comparison.sign ++ " not supported between instances of "
      ++ Quoted.encodeString left.name ++ " and " ++ Quoted.encodeString right.name
  | .integerTooLarge => "int too large to convert to float"
  | .quotientTooLarge => "integer division result too large for a float"
  | .powerTooLarge => "(34, 'Numerical result out of range')"
  | .complexPowerTooLarge => "complex exponentiation"
  | .tooManyDigits count =>
    "Exceeds the limit (4300 digits) for integer string conversion: value has "
      ++ DecimalText.ofInt count ++ " digits; use sys.set_int_max_str_digits() to increase the limit"
  | .tooLongToWrite =>
    "Exceeds the limit (4300 digits) for integer string conversion; "
      ++ "use sys.set_int_max_str_digits() to increase the limit"
  | _ => ""

end Fault

/-- Why an expression is no constant. -/
inductive Unfoldable where
  | notConstant (nodeType text : String)
  | interpolated (nodeType text : String)
  | byReference (nodeType : String)
  | unaryOperator (operator nodeType : String)
  | binaryOperator (operator nodeType : String)
  | inapplicable (operator : String) (fault : Fault) (nodeType : String)
  | unknownConstant (name : String)
  | malformedAccess (nodeType : String)
  | noClassContext (scope constant nodeType : String)
  | notProvided (scope constant : String)
  | illegalKey (kind : Value.Kind)
  | notUnpackable
  | nonNumeric (text : Text)
  | unsupportedOperand (kind : Value.Kind)
  | notAnInteger (x : Float)
  | negativeShift
  | divisionByZero
  | moduloByZero
  | selfReference (className constant : String)
  | constantNotLocated (className constant : String)
  | classNotLocated (className scope constant : String)
  | noParent (className constant : String)

namespace Unfoldable

/-- The type of the offending syntax node, where the failure names one. -/
def nodeType? : Unfoldable → Option String
  | .notConstant nodeType _ => some nodeType
  | .interpolated nodeType _ => some nodeType
  | .byReference nodeType => some nodeType
  | .unaryOperator _ nodeType => some nodeType
  | .binaryOperator _ nodeType => some nodeType
  | .inapplicable _ _ nodeType => some nodeType
  | .unknownConstant _ => some "name"
  | .malformedAccess nodeType => some nodeType
  | .noClassContext _ _ nodeType => some nodeType
  | _ => none

/-- The wording of the failure. -/
def message : Unfoldable → String
  | .notConstant nodeType text =>
    "Unable to compile expression: " ++ nodeType ++ " (" ++ Quoted.encodeString text
      ++ ") is not a constant expression"
  | .interpolated _ text =>
    "Interpolated string (" ++ Quoted.encodeString text ++ ") is not a constant expression"
  | .byReference _ => "By-reference array elements are not constant"
  | .unaryOperator operator _ => "Unsupported unary operator " ++ operator
  | .binaryOperator operator _ => "Unsupported binary operator " ++ operator
  | .inapplicable operator fault _ => "Cannot apply " ++ operator ++ ": " ++ fault.message
  | .unknownConstant name => "Could not locate constant \"" ++ name ++ "\""
  | .malformedAccess _ => "Malformed class constant access"
  | .noClassContext scope constant _ =>
    "Cannot resolve " ++ scope ++ "::" ++ constant ++ " without a class context"
  | .notProvided scope constant => "no " ++ scope ++ "::" ++ constant
  | .illegalKey kind => "Illegal array key type " ++ kind.name
  | .notUnpackable => "Only arrays can be unpacked"
  | .nonNumeric text => "Non-numeric value " ++ Quoted.encode text ++ " in arithmetic"
  | .unsupportedOperand kind => "Unsupported operand type " ++ kind.name
  | .notAnInteger x => "Float " ++ DecimalText.ofFloat x ++ " is not representable as int"
  | .negativeShift => "Bit shift by negative number"
  | .divisionByZero => "Division by zero"
  | .moduloByZero => "Modulo by zero"
  | .selfReference className constant =>
    "Constant " ++ className ++ "::" ++ constant ++ " refers to itself"
  | .constantNotLocated className constant =>
    "Could not locate constant " ++ className ++ "::" ++ constant
  | .classNotLocated className scope constant =>
    "Could not locate class " ++ className ++ " for " ++ scope ++ "::" ++ constant
  | .noParent className constant =>
    className ++ " has no parent for parent::" ++ constant

end Unfoldable

/-- What is wrong with a project configuration. -/
inductive ConfigError where
  | missing (path : String)
  | notUtf8 (damage : Utf8.Damage)
  | notJson (path : String)
  | notAnObject
  | sectionNotAnObject (sectionName : String)
  | mappingNotAnObject (sectionName kind : String)
  | notPaths (sectionName kind rule : String)
  | classmapNotAList (sectionName : String)

/-- The wording of a configuration error. -/
def ConfigError.message : ConfigError → String
  | .missing path => "No composer config at " ++ path
  | .notUtf8 damage => damage.message
  | .notJson path => path ++ " is not valid JSON"
  | .notAnObject => "composer.json must be a JSON object"
  | .sectionNotAnObject sectionName => "'" ++ sectionName ++ "' must be an object"
  | .mappingNotAnObject sectionName kind =>
    "'" ++ sectionName ++ "." ++ kind ++ "' must be an object"
  | .notPaths sectionName kind rule =>
    "'" ++ sectionName ++ "." ++ kind ++ "." ++ rule ++ "' must be a path or list of paths"
  | .classmapNotAList sectionName => "'" ++ sectionName ++ ".classmap' must be a list"

/-- Why a file could not be read. -/
inductive ReadError where
  | noSuchFile
  | isDirectory
  | notADirectory

/-- The wording of a read error. -/
def ReadError.message : ReadError → String
  | .noSuchFile => "No such file or directory"
  | .isDirectory => "Is a directory"
  | .notADirectory => "Not a directory"

/-- Why a query has no answer. -/
inductive Failure where
  | emptyIdentifier (identifier : String)
  | classNotFound (identifier : String)
  | propertyNotFound (className property : String)
  | namelessProperty
  | badVisibilityFlag (flag property : String)
  | notAPropertyNode (nodeType : String)
  | noSuchPosition (count : Nat) (position : Int)
  | namelessPromotion
  | notADeclaration (kind : String)
  | emptySource
  | notAnInstance
  | badVisibility
  | notExportable
  | uncloneable (handle : String)
  | unfoldable (reason : Unfoldable)
  | circularInheritance (className : String)
  | notAFile (path : String)
  | unreadable (path : String) (error : ReadError)
  | badConfig (error : ConfigError)
  | fault (cause : Fault)

namespace Failure

/-- The kind under which reflection reports the failure; the rest it does not report. -/
def kind? : Failure → Option ErrorKind
  | .emptyIdentifier _ => some .identifierNotFound
  | .classNotFound _ => some .identifierNotFound
  | .propertyNotFound _ _ => some .identifierNotFound
  | .namelessProperty => some .invalidNode
  | .badVisibilityFlag _ _ => some .invalidNode
  | .notAPropertyNode _ => some .invalidNode
  | .noSuchPosition _ _ => some .invalidNode
  | .namelessPromotion => some .invalidNode
  | .notADeclaration _ => some .invalidNode
  | .emptySource => some .invalidArgument
  | .notAnInstance => some .invalidArgument
  | .badVisibility => some .invalidArgument
  | .notExportable => some .unsupportedOperation
  | .uncloneable _ => some .uncloneable
  | .unfoldable _ => some .unfoldableExpression
  | .circularInheritance _ => some .circularReference
  | .notAFile _ => some .sourceAccess
  | .unreadable _ _ => some .sourceAccess
  | .badConfig _ => none
  | .fault _ => none

/-- The wording of the failure. -/
def message : Failure → String
  | .emptyIdentifier _ => "Cannot reflect an empty identifier"
  | .classNotFound identifier =>
    "Class \"" ++ identifier ++ "\" could not be found in the located source"
  | .propertyNotFound className property =>
    "Property " ++ className ++ "::$" ++ property ++ " does not exist"
  | .namelessProperty => "A property declaration needs a name"
  | .badVisibilityFlag flag property =>
    "Invalid visibility flag " ++ flag ++ " for property $" ++ property
  | .notAPropertyNode nodeType => "Expected a property declaration node, got " ++ nodeType
  | .noSuchPosition count position =>
    "Property declaration has " ++ DecimalText.ofInt count ++ " properties, no position "
      ++ DecimalText.ofInt position
  | .namelessPromotion => "Promoted parameter without a variable name"
  | .notADeclaration kind => "Expected a PropertyDeclaration, got " ++ kind
  | .emptySource => "Source code string was empty"
  | .notAnInstance => "Instance must be an ObjectDescriptor naming the object's class"
  | .badVisibility =>
    "Visibility should be \\ReflectionProperty::IS_PRIVATE, ::IS_PROTECTED or ::IS_PUBLIC constants"
  | .notExportable => "Unable to export statically"
  | .uncloneable handle => "Trying to clone an uncloneable object of class " ++ handle
  | .unfoldable reason => reason.message
  | .circularInheritance className =>
    "Circular inheritance detected for class " ++ className
  | .notAFile path => "File \"" ++ path ++ "\" does not exist or is not a file"
  | .unreadable path error => "Could not read " ++ path ++ ": " ++ error.message
  | .badConfig error => error.message
  | .fault cause => cause.message

/-- Whether the failure is that of an expression that is no constant. -/
def isUnfoldable (f : Failure) : Bool := f.kind? == some .unfoldableExpression

/-- Whether the failure is that something is declared nowhere. -/
def isNotFound (f : Failure) : Bool := f.kind? == some .identifierNotFound

end Failure

end StaticReflection
