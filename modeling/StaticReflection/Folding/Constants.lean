import StaticReflection.Value.Operator

/-!
# Built-in constants

The constants of PHP that have the same value everywhere and may stand in a
constant expression, by their exact names. `true`, `false` and `null` are
constants whose names may be written in any case.
-/

namespace StaticReflection.BuiltinConstants

/-- The built-in constants that are integers. -/
def integers : List (String × Int) := [
  ("PHP_INT_MAX", intMax), ("PHP_INT_MIN", intMin), ("PHP_INT_SIZE", 8), ("PHP_FLOAT_DIG", 15),
  ("E_ERROR", 1), ("E_WARNING", 2), ("E_PARSE", 4), ("E_NOTICE", 8), ("E_USER_ERROR", 256),
  ("E_USER_WARNING", 512), ("E_USER_NOTICE", 1024), ("E_STRICT", 2048), ("E_DEPRECATED", 8192),
  ("E_USER_DEPRECATED", 16384), ("E_ALL", 32767), ("SORT_REGULAR", 0), ("SORT_NUMERIC", 1),
  ("SORT_STRING", 2), ("SORT_FLAG_CASE", 8), ("COUNT_RECURSIVE", 1), ("ENT_QUOTES", 3),
  ("JSON_HEX_TAG", 1), ("JSON_PRETTY_PRINT", 128), ("JSON_UNESCAPED_SLASHES", 64),
  ("JSON_UNESCAPED_UNICODE", 256), ("JSON_THROW_ON_ERROR", 4194304)]

/-- The built-in constants that are doubles, by their bits. -/
def doubles : List (String × UInt64) := [
  ("PHP_FLOAT_EPSILON", 0x3cb0000000000000), ("PHP_FLOAT_MAX", 0x7fefffffffffffff),
  ("PHP_FLOAT_MIN", 0x0010000000000000), ("M_PI", 0x400921fb54442d18),
  ("M_E", 0x4005bf0a8b145769), ("M_SQRT2", 0x3ff6a09e667f3bcd), ("INF", 0x7ff0000000000000)]

/-- The built-in constants that are texts. -/
def texts : List (String × String) := [
  ("PHP_EOL", "\n"), ("DIRECTORY_SEPARATOR", "/"), ("PATH_SEPARATOR", ":")]

/-- The value of a built-in constant. -/
def value? (name : String) : Option Value :=
  if name = "NAN" then some (.constantNaN Value.nanConstant)
  else match integers.lookup name with
    | some n => some (.int n)
    | none =>
      match doubles.lookup name with
      | some bits => some (.float (Float.ofBits bits))
      | none => (texts.lookup name).map Value.ofString

/-- The value of a constant whose name may be in any case, given in lower case. -/
def literal? (lowered : String) : Option Value :=
  if lowered = "true" then some (.bool true)
  else if lowered = "false" then some (.bool false)
  else if lowered = "null" then some .null
  else none

end StaticReflection.BuiltinConstants
