import Monkey.Object

/-!
# Equality of objects

Objects of different types differ. Arrays are compared element by element,
hashes regardless of the order of their entries, and functions by identity.
-/

namespace Monkey.Object

mutual

/-- Whether two objects are equal. -/
def same : Object → Object → Bool
  | .integer left, .integer right => left == right
  | .boolean left, .boolean right => left == right
  | .null, .null => true
  | .string left, .string right => left == right
  | .array left, .array right => sameElements left right
  | .hash left, .hash right => left.length == right.length && included left right
  | .function left, .function right => left.identity == right.identity
  | .builtin left, .builtin right => left == right
  | .returnValue left, .returnValue right => same left right
  | .error left, .error right => left == right
  | _, _ => false

/-- Whether two lists have equal objects at the same places. -/
def sameElements : List Object → List Object → Bool
  | [], [] => true
  | left :: lefts, right :: rights => same left right && sameElements lefts rights
  | _, _ => false

/-- Whether every entry has an equal entry under its key in another hash. -/
def included : List (HashKey × (Object × Object)) →
    Dictionary HashKey (Object × Object) → Bool
  | [], _ => true
  | (slot, (key, value)) :: rest, entries =>
      (match Dictionary.find? slot entries with
        | some (otherKey, otherValue) => same key otherKey && same value otherValue
        | none => false) && included rest entries

end

instance : BEq Object := ⟨same⟩

end Monkey.Object
