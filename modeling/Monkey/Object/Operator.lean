import Monkey.Object.Key

/-!
# Operators on objects

Arithmetic is that of 64-bit signed integers and wraps around; division
truncates towards zero. Objects of different types are unequal, and nothing
else can be asked of them together. Arrays, hashes, functions and builtins
cannot be compared with their own kind.
-/

namespace Monkey

/-- The value of a unary operator. -/
def UnaryOp.apply : UnaryOp → Object → Except RuntimeError Object
  | .not, operand => .ok (.boolean !operand.isTruthy)
  | .negate, .integer value => .ok (.integer (-value))
  | .negate, operand => .error (.unknownUnary .negate operand.type)

namespace BinaryOp

/-- The answer of a comparison for equality, given whether the operands are
equal. Other operators give none. -/
def equality? : BinaryOp → Bool → Option Object
  | .equal, same => some (.boolean same)
  | .notEqual, same => some (.boolean !same)
  | _, _ => none

/-- The value of an operator on integers. -/
def applyIntegers (op : BinaryOp) (left right : Int64) : Except RuntimeError Object :=
  match op with
  | .add => .ok (.integer (left + right))
  | .subtract => .ok (.integer (left - right))
  | .multiply => .ok (.integer (left * right))
  | .divide =>
      if right = 0 then .error (.divisionByZero left) else .ok (.integer (left / right))
  | .less => .ok (.boolean (left < right))
  | .greater => .ok (.boolean (left > right))
  | .equal => .ok (.boolean (left == right))
  | .notEqual => .ok (.boolean (left != right))

/-- The value of an operator on strings: they can be joined and compared. -/
def applyStrings? : BinaryOp → String → String → Option Object
  | .add, left, right => some (.string (left ++ right))
  | op, left, right => op.equality? (left == right)

/-- The value of a binary operator. -/
def apply (op : BinaryOp) (left right : Object) : Except RuntimeError Object :=
  let unknown := RuntimeError.unknownBinary left.type op right.type
  match left, right with
  | .integer l, .integer r => op.applyIntegers l r
  | .string l, .string r => (op.applyStrings? l r).elim (.error unknown) .ok
  | .boolean l, .boolean r => (op.equality? (l == r)).elim (.error unknown) .ok
  | .null, .null => (op.equality? true).elim (.error unknown) .ok
  | _, _ =>
      if left.type = right.type then .error unknown
      else (op.equality? false).elim (.error (.typeMismatch left.type op right.type)) .ok

end BinaryOp

/-- The element of an array at a position, or the value of a hash under a key.
Positions outside the array and absent keys have the value null. -/
def Object.index : Object → Object → Except RuntimeError Object
  | .array elements, .integer position =>
      .ok (if position < 0 then .null else elements[position.toInt.toNat]?.getD .null)
  | .hash entries, key => do
      let slot ← key.hashKey
      return (Dictionary.find? slot entries).elim .null Prod.snd
  | left, _ => .error (.indexNotSupported left.type)

end Monkey
