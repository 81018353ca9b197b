import Monkey.Builtin
import Monkey.Syntax
import Monkey.Object.Type
import Monkey.Text.Decimal

/-!
# Runtime errors

Reasons why the evaluation of a program stops.
-/

namespace Monkey

/-- Reasons why an evaluation stops. -/
inductive RuntimeError
  | identifierNotFound (name : String)
  | typeMismatch (left : ObjectType) (op : BinaryOp) (right : ObjectType)
  | unknownUnary (op : UnaryOp) (operand : ObjectType)
  | unknownBinary (left : ObjectType) (op : BinaryOp) (right : ObjectType)
  | notAFunction (actual : ObjectType)
  | wrongArgumentCount (got want : Nat)
  | unusableAsHashKey (actual : ObjectType)
  | unsupportedArgument (builtin : Builtin) (actual : ObjectType)
  | indexNotSupported (actual : ObjectType)
  | divisionByZero (dividend : Int64)
  deriving DecidableEq

/-- The wording of a runtime error. -/
def RuntimeError.message : RuntimeError → String
  | .identifierNotFound name => "identifier not found: " ++ name
  | .typeMismatch left op right =>
      "type mismatch: " ++ left.name ++ " " ++ op.spelling ++ " " ++ right.name
  | .unknownUnary op operand => "unknown operator: " ++ op.spelling ++ operand.name
  | .unknownBinary left op right =>
      "unknown operator: " ++ left.name ++ " " ++ op.spelling ++ " " ++ right.name
  | .notAFunction actual => "not a function: " ++ actual.name
  | .wrongArgumentCount got want =>
      "wrong number of arguments. got=" ++ Text.Decimal.writeInt got ++
        ", want=" ++ Text.Decimal.writeInt want
  | .unusableAsHashKey actual => "unusable as hash key: " ++ actual.name
  | .unsupportedArgument builtin actual =>
      "argument to \x60" ++ builtin.name ++ "\x60 not supported, got " ++ actual.name
  | .indexNotSupported actual => "index operator not supported: " ++ actual.name
  | .divisionByZero dividend =>
      "division by zero: " ++ Text.Decimal.writeInt dividend.toInt ++ " / 0"

end Monkey
