import Monkey.Evaluation
import Monkey.Syntax.Draft

/-!
# Sessions

A session evaluates one source after another in the same scope. A source that
cannot be read as a whole is not evaluated at all.
-/

namespace Monkey

/-- What a session answers to a source. -/
inductive Reply
  /-- Some statements could not be read, and nothing was evaluated. -/
  | rejected (diagnostics : List Diagnostic)
  /-- The value, and the state behind the evaluation. -/
  | finished (value : Object) (state : State)
  /-- Calls were nested too deeply. -/
  | exhausted

namespace Session

/-- A depth of nested calls that no machine has the memory to reach. -/
def callDepth : Nat := Nat.pow 2 60

/-- Forgets what was written, so that the output is that of what comes next. -/
def clearOutput (state : State) : State :=
  { state with output := "" }

/-- Evaluates a program in a scope. -/
def evaluate (depth : Nat) (scope : ScopeId) (program : Program) (state : State) : Reply :=
  match program.eval depth scope state with
  | some (value, state) => .finished value state
  | none => .exhausted

/-- Reads a source and evaluates it in a scope. -/
def run (depth : Nat) (scope : ScopeId) (source : String) (state : State) : Reply :=
  let draft := Draft.ofSource source
  if draft.isClean then evaluate depth scope draft.statements state
  else .rejected draft.diagnostics

end Session

end Monkey
