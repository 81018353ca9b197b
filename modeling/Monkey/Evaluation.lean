import Monkey.Action
import Monkey.Builtin.Call
import Monkey.Object.Operator

/-!
# Evaluation

Operands, arguments, elements and pairs are evaluated from left to right. The
value of a list of statements is that of its last statement. The branches of
a condition belong to the scope around them; only the application of a
function opens a scope.

Evaluation follows the tree of an expression, and asks its first argument for
the value of a call. `Object.apply` answers by evaluating the body of the
function with one level of calls less, so the depth of nested calls is the
only thing that has to be bounded.
-/

namespace Monkey

/-- Answers calls: the function and its arguments. -/
abbrev Caller := Object → List Object → Action Object

/-- Runs an action with a new scope, given the scope around it and its first
bindings. -/
def Action.inScope {α : Type} (outer : ScopeId) (bindings : Dictionary String Object)
    (action : ScopeId → Action α) : Action α := fun state =>
  action state.scopes.size (state.openScope (some outer) bindings)

/-- The value of a name: what it is bound to, or else the builtin of that
name. -/
def evalIdentifier (scope : ScopeId) (name : String) : Action Object := fun state =>
  match state.find? scope name with
  | some value => .value value state
  | none =>
      match Builtin.ofName? name with
      | some builtin => .value (.builtin builtin) state
      | none => .signal (.error (.identifierNotFound name)) state

/-- A new closure in the given scope. -/
def makeClosure (scope : ScopeId) (parameters : List String) (body : Block) : Action Object :=
  fun state => .value (.function ⟨state.closures, parameters, body, scope⟩) state.countClosure

mutual

/-- Evaluates an expression in a scope. -/
def Expr.eval (call : Caller) (scope : ScopeId) : Expr → Action Object
  | .ident name => evalIdentifier scope name
  | .int value => pure (.integer value)
  | .bool value => pure (.boolean value)
  | .string text => pure (.string text)
  | .unary op operand => do
      let operand ← operand.eval call scope
      .ofExcept (op.apply operand)
  | .binary left op right => do
      let left ← left.eval call scope
      let right ← right.eval call scope
      .ofExcept (op.apply left right)
  | .cond condition consequence none => do
      if (← condition.eval call scope).isTruthy then Block.evalFrom call scope .null consequence
      else return .null
  | .cond condition consequence (some alternative) => do
      if (← condition.eval call scope).isTruthy then Block.evalFrom call scope .null consequence
      else Block.evalFrom call scope .null alternative
  | .function parameters body => makeClosure scope parameters body
  | .call callee arguments => do
      let function ← callee.eval call scope
      let arguments ← Expr.evalList call scope arguments
      call function arguments
  | .array elements => do
      return .array (← Expr.evalList call scope elements)
  | .index left position => do
      let left ← left.eval call scope
      let position ← position.eval call scope
      .ofExcept (left.index position)
  | .hash pairs => do
      return .hash (← Expr.evalPairs call scope [] pairs)

/-- Evaluates expressions from left to right. -/
def Expr.evalList (call : Caller) (scope : ScopeId) : List Expr → Action (List Object)
  | [] => pure []
  | expression :: rest => do
      let value ← expression.eval call scope
      return value :: (← Expr.evalList call scope rest)

/-- Evaluates the pairs of a hash literal and enters them into a hash one by
one. A key is checked before its value is evaluated. -/
def Expr.evalPairs (call : Caller) (scope : ScopeId)
    (entries : Dictionary HashKey (Object × Object)) :
    List (Expr × Expr) → Action (Dictionary HashKey (Object × Object))
  | [] => pure entries
  | (key, value) :: rest => do
      let key ← key.eval call scope
      let slot ← .ofExcept key.hashKey
      let value ← value.eval call scope
      Expr.evalPairs call scope (Dictionary.insert slot (key, value) entries) rest

/-- Evaluates a statement. The value of a binding is null. -/
def Stmt.eval (call : Caller) (scope : ScopeId) : Stmt → Action Object
  | .bind name value => do
      let value ← value.eval call scope
      .modify (State.bind scope name value)
      return .null
  | .return value => do
      .raise (.return (← value.eval call scope))
  | .expr value => value.eval call scope

/-- Evaluates statements in order, given the value of the statement before
them. -/
def Block.evalFrom (call : Caller) (scope : ScopeId) (last : Object) :
    List Stmt → Action Object
  | [] => pure last
  | statement :: rest => do
      let value ← statement.eval call scope
      Block.evalFrom call scope value rest

end

/-- Evaluates statements in order. Without any the value is null. -/
def Block.eval (call : Caller) (scope : ScopeId) (statements : Block) : Action Object :=
  Block.evalFrom call scope .null statements

/-- Statements behind others are evaluated behind them. -/
theorem Block.evalFrom_append (call : Caller) (scope : ScopeId) (last : Object)
    (front back : List Stmt) :
    Block.evalFrom call scope last (front ++ back) =
      Block.evalFrom call scope last front >>= fun value =>
        Block.evalFrom call scope value back := by
  induction front generalizing last with
  | nil => rfl
  | cons statement front inductionHypothesis =>
    rw [List.cons_append, Block.evalFrom, Block.evalFrom, Action.bind_assoc]
    exact congrArg (statement.eval call scope >>= ·) (funext inductionHypothesis)

/-- What stands before statements has no influence on whether they have a value. -/
theorem Block.evalFrom_of_eval_eq_value {call : Caller} {scope : ScopeId} {block : Block}
    {state next : State} {value : Object}
    (ran : Block.eval call scope block state = .value value next) (last : Object) :
    ∃ result, Block.evalFrom call scope last block state = .value result next := by
  cases block with
  | nil =>
    cases ran
    exact ⟨last, rfl⟩
  | cons => exact ⟨value, ran⟩

theorem Block.evalFrom_of_eval_eq_signal {call : Caller} {scope : ScopeId} {block : Block}
    {state next : State} {raised : Signal}
    (ran : Block.eval call scope block state = .signal raised next) (last : Object) :
    Block.evalFrom call scope last block state = .signal raised next := by
  cases block with
  | nil => cases ran
  | cons => exact ran

/-- Applies a builtin. An error among its results stops the program. -/
def Builtin.apply (builtin : Builtin) (arguments : List Object) : Action Object := do
  Action.modify (State.write (builtin.written arguments))
  match builtin.call arguments with
  | .error cause => .raise (.error cause)
  | result => return result

/-- Applies an object to arguments, with at most `depth` applications of
functions inside each other. -/
def Object.apply (depth : Nat) (function : Object) (arguments : List Object) : Action Object :=
  match function with
  | .function closure =>
      if closure.parameters.length = arguments.length then
        match depth with
        | 0 => .exhausted
        | depth + 1 =>
            .inScope closure.scope (Dictionary.ofList (closure.parameters.zip arguments))
              fun scope => (Block.eval (Object.apply depth) scope closure.body).catchReturn
      else .raise (.error (.wrongArgumentCount arguments.length closure.parameters.length))
  | .builtin primitive => primitive.apply arguments
  | other => .raise (.error (.notAFunction other.type))

/-- Evaluates a program in a scope of a state. A return at the top level ends
the program with its value, and an error ends it with the error as its value.
There is no value if calls are nested more than `depth` deep. -/
def Program.eval (depth : Nat) (scope : ScopeId) (program : Program) (state : State) :
    Option (Object × State) :=
  match Block.eval (Object.apply depth) scope program state with
  | .value (.returnValue value) state => some (value, state)
  | .value value state => some (value, state)
  | .signal (.return value) state => some (value, state)
  | .signal (.error cause) state => some (.error cause, state)
  | .exhausted => none

/-- How the statements of a program end that has a value. -/
theorem Program.cases_of_eval {depth : Nat} {scope : ScopeId} {program : Program}
    {state next : State} {value : Object}
    (finished : program.eval depth scope state = some (value, next)) :
    (∃ result, Block.eval (Object.apply depth) scope program state = .value result next ∧
      (result = value ∨ result = .returnValue value)) ∨
    Block.eval (Object.apply depth) scope program state = .signal (.return value) next ∨
    ∃ cause, Block.eval (Object.apply depth) scope program state = .signal (.error cause) next ∧
      value = .error cause := by
  unfold Program.eval at finished
  split at finished
  · next ran =>
    cases finished
    exact .inl ⟨_, ran, .inr rfl⟩
  · next ran =>
    cases finished
    exact .inl ⟨_, ran, .inl rfl⟩
  · next ran =>
    cases finished
    exact .inr (.inl ran)
  · next ran =>
    cases finished
    exact .inr (.inr ⟨_, ran, rfl⟩)
  · contradiction

end Monkey
