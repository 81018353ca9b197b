import Monkey.Object.Printer

/-!
# Calling builtins

A builtin checks the number of its arguments first and their types afterwards.
Only `puts` writes: each argument on a line of its own.
-/

namespace Monkey.Builtin

/-- The only argument. -/
def oneArgument : List Object → Except RuntimeError Object
  | [argument] => .ok argument
  | arguments => .error (.wrongArgumentCount arguments.length 1)

/-- The elements of the only argument, which has to be an array. -/
def arrayArgument (builtin : Builtin) (arguments : List Object) :
    Except RuntimeError (List Object) := do
  match ← oneArgument arguments with
  | .array elements => return elements
  | argument => throw (.unsupportedArgument builtin argument.type)

theorem arrayArgument_eq_ok_iff {builtin : Builtin} {arguments : List Object}
    {elements : List Object} :
    arrayArgument builtin arguments = .ok elements ↔ arguments = [.array elements] := by
  rcases arguments with _ | ⟨first, _ | ⟨second, rest⟩⟩
  · simp [arrayArgument, oneArgument, bind, Except.bind]
  · cases first <;>
      simp [arrayArgument, oneArgument, bind, Except.bind, pure, Except.pure, throw,
        throwThe, MonadExceptOf.throw]
  · simp [arrayArgument, oneArgument, bind, Except.bind]

/-- A length as an integer. What is longer than any integer counts as the greatest. -/
def lengthValue (length : Nat) : Int64 :=
  if length < Nat.pow 2 63 then Int64.ofNat length else Int64.maxValue

/-- Only what is empty has the length zero. -/
theorem lengthValue_eq_zero_iff {length : Nat} : lengthValue length = 0 ↔ length = 0 := by
  unfold lengthValue
  split
  · next bounded =>
    rw [← Int64.toInt_inj, Int64.toInt_ofNat_of_lt bounded, Int64.toInt_zero, Int.natCast_eq_zero]
  · next long =>
    constructor
    · intro same
      cases same
    · rintro rfl
      exact absurd (Nat.two_pow_pos 63) long

/-- The value of a call. -/
def value (builtin : Builtin) (arguments : List Object) : Except RuntimeError Object :=
  match builtin with
  | .len => do
      match ← oneArgument arguments with
      | .string text => return .integer (lengthValue text.length)
      | .array elements => return .integer (lengthValue elements.length)
      | argument => throw (.unsupportedArgument .len argument.type)
  | .first => do
      return (← arrayArgument .first arguments).head?.getD .null
  | .last => do
      return (← arrayArgument .last arguments).getLast?.getD .null
  | .rest => do
      match ← arrayArgument .rest arguments with
      | [] => return .null
      | _ :: others => return .array others
  | .push =>
      match arguments with
      | [.array elements, element] => .ok (.array (elements ++ [element]))
      | [argument, _] => .error (.unsupportedArgument .push argument.type)
      | _ => .error (.wrongArgumentCount arguments.length 2)
  | .puts => .ok .null

/-- The text that a call writes. -/
def written (builtin : Builtin) (arguments : List Object) : String :=
  match builtin with
  | .puts => arguments.foldl (fun text argument => text ++ argument.inspect ++ "\n") ""
  | _ => ""

/-- The object that a call gives to the host: an error is an object as well. -/
def call (builtin : Builtin) (arguments : List Object) : Object :=
  match builtin.value arguments with
  | .ok result => result
  | .error cause => .error cause

end Monkey.Builtin
