/-!
# Builtin functions

The functions that every program may use without defining them.
-/

namespace Monkey

/-- Functions that every program may use. -/
inductive Builtin
  | len | first | last | rest | push | puts
  deriving DecidableEq

namespace Builtin

/-- The name under which a program finds a builtin. -/
def name : Builtin → String
  | .len => "len"
  | .first => "first"
  | .last => "last"
  | .rest => "rest"
  | .push => "push"
  | .puts => "puts"

/-- The builtin with the given name. -/
def ofName? : String → Option Builtin
  | "len" => some .len
  | "first" => some .first
  | "last" => some .last
  | "rest" => some .rest
  | "push" => some .push
  | "puts" => some .puts
  | _ => none

theorem ofName?_eq_some_iff {name : String} {builtin : Builtin} :
    ofName? name = some builtin ↔ name = builtin.name := by
  constructor
  · intro found
    unfold ofName? at found
    split at found <;> cases found <;> rfl
  · rintro rfl
    cases builtin <;> rfl

end Builtin

end Monkey
