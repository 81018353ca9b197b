import Monkey.Proofs.Evaluation.Logic
import Monkey.Proofs.State.WellFormed

/-!
# Signals are not data

Return values and errors are objects as well, since a host may bind them, but
no evaluation turns a signal into an object that can be bound, stored or passed
on. A signal is a signal of the text that is evaluated: what is called inside it
never leaves it.
-/

namespace Monkey

/-! ## Clean objects and states -/

/-- No return value and no error is part of the object. -/
inductive Object.Clean : Object → Prop
  | integer (value : Int64) : Clean (.integer value)
  | boolean (value : Bool) : Clean (.boolean value)
  | null : Clean .null
  | string (text : String) : Clean (.string text)
  | array {elements : List Object} (parts : ∀ element ∈ elements, Clean element) :
      Clean (.array elements)
  | hash {entries : List (HashKey × (Object × Object))}
      (keys : ∀ entry ∈ entries, Clean entry.2.1) (values : ∀ entry ∈ entries, Clean entry.2.2) :
      Clean (.hash entries)
  | function (closure : Closure) : Clean (.function closure)
  | builtin (primitive : Builtin) : Clean (.builtin primitive)

theorem Object.hereditary_clean : Hereditary Object.Clean where
  integer := .integer
  boolean := .boolean
  null := .null
  string := .string
  function := .function
  builtin := .builtin
  array_iff elements := by
    constructor
    · intro clean
      cases clean with
      | array parts => exact parts
    · exact .array
  hash_iff entries := by
    constructor
    · intro clean entry member
      cases clean with
      | hash keys values => exact ⟨keys entry member, values entry member⟩
    · intro parts
      exact .hash (fun entry member => (parts entry member).1)
        fun entry member => (parts entry member).2

theorem Object.Clean.isError_eq_false {object : Object} (clean : object.Clean) :
    object.isError = false := by
  cases clean <;> rfl

/-- Every object that is bound in a scope is clean. -/
def State.Clean (state : State) : Prop :=
  ∀ (id : ScopeId) (scope : Scope), state.scopes[id]? = some scope →
    ∀ entry ∈ scope.bindings, entry.2.Clean

theorem State.clean_empty : State.empty.Clean := by
  intro id scope found
  simp [State.empty] at found

namespace State.Clean

variable {state : State}

theorem openScope (clean : state.Clean) (outer : Option ScopeId)
    {bindings : Dictionary String Object} (objects : ∀ entry ∈ bindings, entry.2.Clean) :
    (state.openScope outer bindings).Clean :=
  State.EveryObject.openScope clean outer objects

theorem bind (clean : state.Clean) {value : Object} (object : value.Clean) (target : ScopeId)
    (name : String) : (state.bind target name value).Clean :=
  State.EveryObject.bind clean object target name

theorem findWithin? (clean : state.Clean) {name : String} {count : Nat} {id : ScopeId}
    {value : Object} (found : state.findWithin? name count id = some value) : value.Clean :=
  State.EveryObject.findWithin? clean found

end State.Clean

/-- Clean states bind clean objects. -/
def Invariance.clean : Invariance where
  Invariant := State.Clean
  Good := Object.Clean
  hereditary := Object.hereditary_clean
  bind scope name clean object := clean.bind object scope name
  write _ clean := clean
  count clean := clean
  openScope outer clean objects := clean.openScope outer objects
  find clean found := clean.findWithin? found

/-! ## Signals of a text -/

/-- Runs that return only if a return statement lies in their text. -/
def Logic.returning (invariance : Invariance) : Logic where
  toInvariance := invariance
  Step _ text _ raised _ :=
    ∀ value, raised = some (.return value) → ∃ expression, .return expression ∈ text
  refl _ _ eq := nomatch eq
  trans _ second := second
  mono subset step value eq := (step value eq).imp fun _ member => subset member
  error _ _ _ eq := nomatch eq
  returns _ _ member _ _ := ⟨_, member⟩
  binds _ _ _ _ eq := nomatch eq
  writes _ _ _ eq := nomatch eq
  counts _ _ eq := nomatch eq
  calls := by
    rintro scope text outer bindings before (_ | _ | _) after - value eq <;> cases eq

/-- If the outcome is a signal, then it is an error, or a return for which a
return statement lies in the text. -/
def Outcome.RaisesOnly {α : Type} (text : List Stmt) (outcome : Outcome α) : Prop :=
  ∀ raised next, outcome = .signal raised next →
    (∃ cause, raised = .error cause) ∨
      ∃ value expression, raised = .return value ∧ Stmt.return expression ∈ text

theorem Logic.Holds.raisesOnly {α : Type} {scope : ScopeId} {text : List Stmt}
    {post : α → Prop} {action : Action α}
    (holds : (Logic.returning .none).Holds scope text post action)
    (state : State) : (action state).RaisesOnly text := by
  intro raised next eq
  have run := holds state trivial
  rw [eq] at run
  cases raised with
  | error cause => exact .inl ⟨cause, rfl⟩
  | «return» value =>
    rcases run.2.2 value rfl with ⟨expression, member⟩
    exact .inr ⟨value, expression, rfl, member⟩

/-! ## Programs and calls -/

/-- Statements keep a clean state clean, and end with clean objects. -/
theorem Block.allows_of_clean {state : State} (clean : state.Clean) (depth : Nat)
    (scope : ScopeId) (block : Block) :
    (Logic.returning .clean).Allows scope (Block.statements block) Object.Clean state
      (block.eval (Object.apply depth) scope state) :=
  Logic.block ((Logic.returning .clean).answers_apply depth) scope Object.Clean.null block state
    clean

theorem Block.clean_of_eval {depth : Nat} {scope : ScopeId} {block : Block}
    {state next : State} {value : Object} (clean : state.Clean)
    (ran : block.eval (Object.apply depth) scope state = .value value next) : value.Clean := by
  have run := Block.allows_of_clean clean depth scope block
  rw [ran] at run
  exact run.1

/-- The value of statements is the value of the program if it is clean. -/
theorem Program.eval_of_clean {depth : Nat} {scope : ScopeId} {program : Program}
    {state next : State} {value : Object}
    (ran : Block.eval (Object.apply depth) scope program state = .value value next)
    (clean : value.Clean) : program.eval depth scope state = some (value, next) := by
  rw [Program.eval, ran]
  cases clean <;> rfl

/-- How the statements of a program end that has a value in a clean state. -/
theorem Program.cases_of_eval_of_clean {depth : Nat} {scope : ScopeId} {program : Program}
    {state next : State} {value : Object} (clean : state.Clean)
    (finished : program.eval depth scope state = some (value, next)) :
    (Block.eval (Object.apply depth) scope program state = .value value next ∧ value.Clean) ∨
    Block.eval (Object.apply depth) scope program state = .signal (.return value) next ∨
    ∃ cause, Block.eval (Object.apply depth) scope program state = .signal (.error cause) next ∧
      value = .error cause := by
  rcases cases_of_eval finished with ⟨result, ran, same⟩ | raised
  · have object := Block.clean_of_eval clean ran
    rcases same with rfl | rfl
    · exact .inl ⟨ran, object⟩
    · cases object
  · exact .inr raised

/-- A program that finishes in a clean state leaves a clean state behind, and
its value is clean or an error. -/
theorem Program.clean_of_eval {depth : Nat} {scope : ScopeId} {program : Program}
    {state next : State} {value : Object} (clean : state.Clean)
    (finished : program.eval depth scope state = some (value, next)) :
    next.Clean ∧ (value.Clean ∨ ∃ cause, value = .error cause) := by
  have run := Block.allows_of_clean clean depth scope program
  rcases cases_of_eval_of_clean clean finished with ⟨ran, object⟩ | ran | ⟨cause, ran, rfl⟩ <;>
    rw [ran] at run
  · exact ⟨run.2.1, .inl object⟩
  · exact ⟨run.2.1, .inl run.1⟩
  · exact ⟨run.2.1, .inr ⟨cause, rfl⟩⟩

/-- No call raises a return. -/
theorem Object.apply_raisesOnly (depth : Nat) (function : Object) (arguments : List Object)
    (state : State) : (Object.apply depth function arguments state).RaisesOnly [] :=
  ((Logic.returning .none).answers_apply depth state.scopes.size function arguments trivial
    fun _ _ => trivial).raisesOnly state

/-- A return in the body of a function ends the call of that function. -/
theorem Object.apply_of_return {depth : Nat} {closure : Closure} {arguments : List Object}
    {state next : State} {value : Object}
    (matching : closure.parameters.length = arguments.length)
    (returned : closure.body.eval (Object.apply depth) state.scopes.size
      (state.openScope (some closure.scope)
        (Dictionary.ofList (closure.parameters.zip arguments))) = .signal (.return value) next) :
    Object.apply (depth + 1) (.function closure) arguments state = .value value next := by
  simp only [Object.apply, matching, if_true, Action.inScope, Action.catchReturn, returned]

/-- Signals never become data. A program keeps a clean state clean, and its
value is clean or an error at the very top. In any state at all, evaluation
raises no other signals than errors and the returns of its own text, a call
raises none but errors, and a return in the body of a function ends exactly
that call. -/
theorem Program.confines_signals (depth : Nat) :
    (∀ (scope : ScopeId) (program : Program) (state next : State) (value : Object),
      state.Clean → program.eval depth scope state = some (value, next) →
        next.Clean ∧ (value.Clean ∨ ∃ cause, value = .error cause) ∧
          ∀ inner, value ≠ .returnValue inner) ∧
    (∀ (scope : ScopeId) (state : State),
      (∀ expression : Expr,
        (expression.eval (Object.apply depth) scope state).RaisesOnly expression.statements) ∧
      (∀ expressions : List Expr,
        (Expr.evalList (Object.apply depth) scope expressions state).RaisesOnly
          (Expr.listStatements expressions)) ∧
      (∀ (entries : Dictionary HashKey (Object × Object)) (pairs : List (Expr × Expr)),
        (Expr.evalPairs (Object.apply depth) scope entries pairs state).RaisesOnly
          (Expr.pairStatements pairs)) ∧
      (∀ statement : Stmt,
        (statement.eval (Object.apply depth) scope state).RaisesOnly statement.statements) ∧
      (∀ block : Block,
        (block.eval (Object.apply depth) scope state).RaisesOnly (Block.statements block))) ∧
    (∀ (function : Object) (arguments : List Object) (state next : State) (raised : Signal),
      Object.apply depth function arguments state = .signal raised next →
        ∃ cause, raised = .error cause) ∧
    (∀ (closure : Closure) (arguments : List Object) (state next : State) (value : Object),
      closure.parameters.length = arguments.length →
      closure.body.eval (Object.apply depth) state.scopes.size
        (state.openScope (some closure.scope)
          (Dictionary.ofList (closure.parameters.zip arguments))) =
        .signal (.return value) next →
      Object.apply (depth + 1) (.function closure) arguments state = .value value next) := by
  have answers := (Logic.returning .none).answers_apply depth
  refine ⟨?_, ?_, ?_, ?_⟩
  · intro scope program state next value clean finished
    rcases Program.clean_of_eval clean finished with ⟨kept, object⟩
    refine ⟨kept, object, ?_⟩
    rintro inner rfl
    rcases object with object | ⟨cause, eq⟩
    · cases object
    · cases eq
  · intro scope state
    refine ⟨?_, ?_, ?_, ?_, ?_⟩
    · exact fun expression => (Logic.expr answers scope expression).raisesOnly state
    · exact fun expressions => (Logic.list answers scope expressions).raisesOnly state
    · intro entries pairs
      have good : (Logic.returning .none).GoodEntries entries := fun _ _ => ⟨trivial, trivial⟩
      exact (Logic.pairs answers scope good pairs).raisesOnly state
    · exact fun statement => (Logic.stmt answers scope statement).raisesOnly state
    · exact fun block => (Logic.block answers scope trivial block).raisesOnly state
  · intro function arguments state next raised eq
    rcases Object.apply_raisesOnly depth function arguments state raised next eq with
      error | ⟨value, expression, -, member⟩
    · exact error
    · exact absurd member (List.not_mem_nil)
  · intro closure arguments state next value matching returned
    exact Object.apply_of_return matching returned

/-- A function that returns an array from inside a condition. -/
def Closure.wrapper : Closure :=
  ⟨0, ["x"], [.expr (.cond (.ident "x") [.return (.array [.ident "x"])] none), .expr (.int 1)], 0⟩

/-- The function is called in a hash literal, and on its own. -/
theorem Program.confines_signals_of_early_return :
    (∃ next,
      Program.eval 1 0
        [.bind "wrap" (.function Closure.wrapper.parameters Closure.wrapper.body),
         .expr (.hash [(.bool true, .call (.ident "wrap") [.bool true])])]
        (State.empty.openScope none []) =
          some (.hash [(⟨.boolean, 1⟩, (.boolean true, .array [.boolean true]))], next) ∧
      next.Clean) ∧
    Object.apply 1 (.function Closure.wrapper) [.boolean true] (State.empty.openScope none []) =
      .value (.array [.boolean true])
        ((State.empty.openScope none []).openScope (some 0) [("x", .boolean true)]) := by
  have clean := State.clean_empty.openScope none (List.forall_mem_nil _)
  constructor
  · refine ⟨?next, ?finished, ?kept⟩
    case kept =>
      obtain ⟨programs, -, -, -⟩ := Program.confines_signals 1
      exact (programs 0 _ _ ?next _ clean ?finished).1
    case finished => rfl
  · obtain ⟨-, -, -, calls⟩ := Program.confines_signals 0
    exact calls _ _ _ _ _ rfl rfl

end Monkey
