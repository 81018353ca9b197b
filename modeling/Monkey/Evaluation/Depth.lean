import Monkey.Evaluation

/-!
# The depth of calls

Allowing calls to be nested more deeply does not change an evaluation that
ends with a value or a signal. Hence any two depths at which a program
finishes give the same value and the same state.
-/

namespace Monkey

variable {α β : Type}

/-- The second action ends like the first whenever the first is not stopped by
the depth of its calls. -/
def Action.Extends (first second : Action α) : Prop :=
  ∀ state, first state = .exhausted ∨ first state = second state

namespace Action.Extends

theorem refl (action : Action α) : Extends action action := fun _ => .inr rfl

theorem trans {first second third : Action α} (left : Extends first second)
    (right : Extends second third) : Extends first third := by
  intro state
  rcases left state with exhausted | same
  · exact .inl exhausted
  · rw [same]
    exact right state

theorem bind {first second : Action α} {next later : α → Action β}
    (action : Extends first second) (rest : ∀ result, Extends (next result) (later result)) :
    Extends (first >>= next) (second >>= later) := by
  intro state
  simp only [Action.bind_apply]
  rcases action state with exhausted | same
  · exact .inl (by rw [exhausted])
  · rw [← same]
    cases first state with
    | value result state => exact rest result state
    | signal raised state => exact .inr rfl
    | exhausted => exact .inl rfl

theorem catchReturn {first second : Action Object} (action : Extends first second) :
    Extends first.catchReturn second.catchReturn := by
  intro state
  simp only [Action.catchReturn]
  rcases action state with exhausted | same
  · exact .inl (by rw [exhausted])
  · exact .inr (by rw [same])

theorem inScope {first second : ScopeId → Action α} (outer : ScopeId)
    (bindings : Dictionary String Object)
    (action : ∀ scope, Extends (first scope) (second scope)) :
    Extends (Action.inScope outer bindings first) (Action.inScope outer bindings second) :=
  fun state => action state.scopes.size (state.openScope (some outer) bindings)

end Action.Extends

/-- The second caller answers every call like the first whenever the first
answers it. -/
def Caller.Extends (call later : Caller) : Prop :=
  ∀ function arguments, (call function arguments).Extends (later function arguments)

section Evaluation

variable {call later : Caller}

mutual

/-- Evaluation extends if the answers to calls do. -/
theorem Expr.eval_extends (calls : call.Extends later) (scope : ScopeId) :
    ∀ expression : Expr, (expression.eval call scope).Extends (expression.eval later scope)
  | .ident _ | .int _ | .bool _ | .string _ | .function _ _ => .refl _
  | .unary _ operand => (Expr.eval_extends calls scope operand).bind fun _ => .refl _
  | .binary left _ right =>
      (Expr.eval_extends calls scope left).bind fun _ =>
        (Expr.eval_extends calls scope right).bind fun _ => .refl _
  | .cond condition consequence none => by
      refine (Expr.eval_extends calls scope condition).bind fun value => ?_
      split
      · exact Block.evalFrom_extends calls scope .null consequence
      · exact .refl _
  | .cond condition consequence (some alternative) => by
      refine (Expr.eval_extends calls scope condition).bind fun value => ?_
      split
      · exact Block.evalFrom_extends calls scope .null consequence
      · exact Block.evalFrom_extends calls scope .null alternative
  | .call callee arguments =>
      (Expr.eval_extends calls scope callee).bind fun _ =>
        (Expr.evalList_extends calls scope arguments).bind fun _ => calls _ _
  | .array elements => (Expr.evalList_extends calls scope elements).bind fun _ => .refl _
  | .index left position =>
      (Expr.eval_extends calls scope left).bind fun _ =>
        (Expr.eval_extends calls scope position).bind fun _ => .refl _
  | .hash pairs => (Expr.evalPairs_extends calls scope [] pairs).bind fun _ => .refl _

/-- Evaluation of lists extends if the answers to calls do. -/
theorem Expr.evalList_extends (calls : call.Extends later) (scope : ScopeId) :
    ∀ expressions : List Expr,
      (Expr.evalList call scope expressions).Extends (Expr.evalList later scope expressions)
  | [] => .refl _
  | expression :: rest =>
      (Expr.eval_extends calls scope expression).bind fun _ =>
        (Expr.evalList_extends calls scope rest).bind fun _ => .refl _

/-- Evaluation of pairs extends if the answers to calls do. -/
theorem Expr.evalPairs_extends (calls : call.Extends later) (scope : ScopeId)
    (entries : Dictionary HashKey (Object × Object)) :
    ∀ pairs : List (Expr × Expr),
      (Expr.evalPairs call scope entries pairs).Extends
        (Expr.evalPairs later scope entries pairs)
  | [] => .refl _
  | (key, value) :: rest =>
      (Expr.eval_extends calls scope key).bind fun _ => (Action.Extends.refl _).bind fun _ =>
        (Expr.eval_extends calls scope value).bind fun _ =>
          Expr.evalPairs_extends calls scope _ rest

/-- Evaluation of statements extends if the answers to calls do. -/
theorem Stmt.eval_extends (calls : call.Extends later) (scope : ScopeId) :
    ∀ statement : Stmt, (statement.eval call scope).Extends (statement.eval later scope)
  | .bind _ value => (Expr.eval_extends calls scope value).bind fun _ => .refl _
  | .return value => (Expr.eval_extends calls scope value).bind fun _ => .refl _
  | .expr value => Expr.eval_extends calls scope value

/-- Evaluation of blocks extends if the answers to calls do. -/
theorem Block.evalFrom_extends (calls : call.Extends later) (scope : ScopeId) (last : Object) :
    ∀ statements : List Stmt,
      (Block.evalFrom call scope last statements).Extends
        (Block.evalFrom later scope last statements)
  | [] => .refl _
  | statement :: rest =>
      (Stmt.eval_extends calls scope statement).bind fun value =>
        Block.evalFrom_extends calls scope value rest

end

end Evaluation

/-- A call extends if it may nest further calls one level deeper. -/
theorem Object.apply_extends_succ (depth : Nat) :
    Caller.Extends (Object.apply depth) (Object.apply (depth + 1)) := by
  induction depth with
  | zero =>
    intro function arguments state
    cases function with
    | function closure =>
      by_cases matching : closure.parameters.length = arguments.length
      · exact .inl (by simp [Object.apply, matching, Action.exhausted])
      · exact .inr (by simp [Object.apply, matching])
    | _ => exact .inr rfl
  | succ depth inductionHypothesis =>
    intro function arguments
    cases function with
    | function closure =>
      by_cases matching : closure.parameters.length = arguments.length
      · simp only [Object.apply, matching, if_true]
        exact .inScope _ _ fun scope =>
          (Block.evalFrom_extends inductionHypothesis scope .null closure.body).catchReturn
      · simp only [Object.apply, matching, if_false]
        exact .refl _
    | _ => exact .refl _

/-- A call extends if it may nest further calls more deeply. -/
theorem Object.apply_extends {depth deeper : Nat} (le : depth ≤ deeper) :
    Caller.Extends (Object.apply depth) (Object.apply deeper) := by
  induction le with
  | refl => exact fun _ _ => .refl _
  | step _ inductionHypothesis =>
    exact fun function arguments =>
      (inductionHypothesis function arguments).trans
        (Object.apply_extends_succ _ function arguments)

/-- A program that finishes at some depth finishes in the same way at every
greater depth. -/
theorem Program.eval_eq_some_of_le {depth deeper : Nat} (le : depth ≤ deeper)
    {scope : ScopeId} {program : Program} {state next : State} {value : Object}
    (finished : program.eval depth scope state = some (value, next)) :
    program.eval deeper scope state = some (value, next) := by
  unfold Program.eval at finished ⊢
  rcases Block.evalFrom_extends (Object.apply_extends le) scope .null program state with
    exhausted | same
  · rw [Block.eval, exhausted] at finished
    contradiction
  · rwa [Block.eval, ← same]

/-- Any two depths at which a program finishes agree. -/
theorem Program.eval_deterministic {depth other : Nat} {scope : ScopeId} {program : Program}
    {state : State} {first second : Object × State}
    (firstFinished : program.eval depth scope state = some first)
    (secondFinished : program.eval other scope state = some second) : first = second := by
  rcases Nat.le_total depth other with le | le
  · have deeper := Program.eval_eq_some_of_le le firstFinished
    exact Option.some.inj (deeper.symm.trans secondFinished)
  · have deeper := Program.eval_eq_some_of_le le secondFinished
    exact Option.some.inj (firstFinished.symm.trans deeper)

end Monkey
