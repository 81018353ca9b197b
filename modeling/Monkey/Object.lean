import Monkey.Dictionary
import Monkey.RuntimeError

/-!
# Objects

The values that programs compute with. A closure refers to the scope in which
it was made by the number of that scope, and has an identity of its own that
no other closure shares.

A return value or an error may also be an object, because a host can bind one
to a name. As objects they are plain values; leaving a function and stopping
a program are signals, not objects.
-/

namespace Monkey

/-- Scopes are numbered in the order in which they are opened. -/
abbrev ScopeId := Nat

/-- A function together with the scope in which it was made. -/
structure Closure where
  /-- Tells closures apart. -/
  identity : Nat
  parameters : List String
  body : Block
  scope : ScopeId

/-- Names an entry of a hash: keys of one type with one digest are the same
key. -/
structure HashKey where
  type : ObjectType
  digest : UInt64
  deriving DecidableEq

/-- Values of programs. -/
inductive Object
  | integer (value : Int64)
  | boolean (value : Bool)
  | null
  | string (text : String)
  | array (elements : List Object)
  /-- A dictionary whose entries keep the object that served as key beside the
  value. -/
  | hash (entries : List (HashKey × (Object × Object)))
  | function (closure : Closure)
  | builtin (primitive : Builtin)
  | returnValue (value : Object)
  | error (cause : RuntimeError)

namespace Object

/-- The type of an object. -/
def type : Object → ObjectType
  | .integer _ => .integer
  | .boolean _ => .boolean
  | .null => .null
  | .string _ => .string
  | .array _ => .array
  | .hash _ => .hash
  | .function _ => .function
  | .builtin _ => .builtin
  | .returnValue _ => .returnValue
  | .error _ => .error

/-- Everything but null and false counts as true. -/
def isTruthy : Object → Bool
  | .null => false
  | .boolean value => value
  | _ => true

/-- Whether an object is an error. -/
def isError : Object → Bool
  | .error _ => true
  | _ => false

end Object

end Monkey
