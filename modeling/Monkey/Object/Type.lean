/-!
# Types of objects

Every object has one type, which decides what can be done with it and by which
runtime errors refer to it.
-/

namespace Monkey

/-- Types of objects. -/
inductive ObjectType
  | integer | boolean | null | string | array | hash | function | builtin
  | returnValue | error
  deriving DecidableEq

/-- What runtime errors call a type. -/
def ObjectType.name : ObjectType → String
  | .integer => "INTEGER"
  | .boolean => "BOOLEAN"
  | .null => "NULL"
  | .string => "STRING"
  | .array => "ARRAY"
  | .hash => "HASH"
  | .function => "FUNCTION"
  | .builtin => "BUILTIN"
  | .returnValue => "RETURN_VALUE"
  | .error => "ERROR"

end Monkey
