import Monkey.Object
import Monkey.Syntax.Printer

/-!
# The text of an object

How objects are shown to the user. Strings are shown without quotes, also
inside arrays and hashes.
-/

namespace Monkey.Object

mutual

/-- The text that shows an object. -/
def inspect : Object → String
  | .integer value => Text.Decimal.writeInt value.toInt
  | .boolean value => toString value
  | .null => "null"
  | .string text => text
  | .array elements => "[" ++ Text.commaSeparated (inspectElements elements) ++ "]"
  | .hash entries => "\x7b" ++ Text.commaSeparated (inspectEntries entries) ++ "\x7d"
  | .function closure =>
      "fn(" ++ Text.commaSeparated closure.parameters ++ ") \x7b " ++
        Block.text closure.body ++ " \x7d"
  | .builtin primitive => "builtin function " ++ primitive.name
  | .returnValue value => inspect value
  | .error cause => "ERROR: " ++ cause.message

/-- The texts of objects in order. -/
def inspectElements : List Object → List String
  | [] => []
  | element :: rest => inspect element :: inspectElements rest

/-- The texts of the entries of a hash, a colon between key and value. -/
def inspectEntries : List (HashKey × (Object × Object)) → List String
  | [] => []
  | (_, (key, value)) :: rest => (inspect key ++ ":" ++ inspect value) :: inspectEntries rest

end

theorem inspect_array (elements : List Object) :
    inspect (.array elements) = "[" ++ Text.commaSeparated (inspectElements elements) ++ "]" := rfl

theorem inspect_hash (entries : Dictionary HashKey (Object × Object)) :
    inspect (.hash entries) = "\x7b" ++ Text.commaSeparated (inspectEntries entries) ++ "\x7d" :=
  rfl

theorem inspect_function (closure : Closure) :
    inspect (.function closure) =
      "fn(" ++ Text.commaSeparated closure.parameters ++ ") \x7b " ++
        Block.text closure.body ++ " \x7d" := rfl

theorem inspect_returnValue (value : Object) : inspect (.returnValue value) = inspect value := rfl

theorem inspectElements_cons (element : Object) (rest : List Object) :
    inspectElements (element :: rest) = inspect element :: inspectElements rest := rfl

theorem inspectEntries_cons (slot : HashKey) (key value : Object)
    (rest : Dictionary HashKey (Object × Object)) :
    inspectEntries ((slot, (key, value)) :: rest) =
      (inspect key ++ ":" ++ inspect value) :: inspectEntries rest := rfl

end Monkey.Object
