import Monkey.Object
import Monkey.Text.Digest

/-!
# Hash keys

Integers, booleans and strings can be keys of a hash. Integers and booleans
are known by their digest; two different strings may share one.
-/

namespace Monkey.Object

/-- The key of an integer, a boolean or a string. -/
def hashKey : Object → Except RuntimeError HashKey
  | .integer value => .ok ⟨.integer, value.toUInt64⟩
  | .boolean value => .ok ⟨.boolean, if value then 1 else 0⟩
  | .string text => .ok ⟨.string, Text.Digest.ofString text⟩
  | object => .error (.unusableAsHashKey object.type)

/-- Enters a value into a hash under a key object. A later key object takes
the place of an earlier one with the same key. -/
def enter (entries : Dictionary HashKey (Object × Object)) (key value : Object) :
    Except RuntimeError (Dictionary HashKey (Object × Object)) := do
  let slot ← key.hashKey
  return Dictionary.insert slot (key, value) entries

end Monkey.Object
