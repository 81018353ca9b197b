import Monkey.Evaluation
import Monkey.Proofs.Evaluation.Text
import Monkey.Proofs.Object.Hereditary

/-!
# Logics of evaluation

A logic relates an action that runs in a scope to the text that it evaluates
and to what its values satisfy. If its judgement passes through the ways in
which actions are put together, then it holds of every evaluation and of every
call, however deep the calls are nested. This is the only induction over
evaluation that properties of single runs need.
-/

namespace Monkey

/-- What is left of a signal behind the call in which it was raised. -/
def Signal.uncaught : Signal → Option Signal
  | .return _ => none
  | .error cause => some (.error cause)

/-- The object that a signal carries, if any, has a property. -/
def Signal.Carries (good : Object → Prop) : Signal → Prop
  | .return value => good value
  | .error _ => True

/-- A property of states together with one of the objects that are found in
them and bound in them. -/
structure Invariance where
  Invariant : State → Prop
  Good : Object → Prop
  hereditary : Hereditary Good
  bind : ∀ {state value} (scope : ScopeId) (name : String), Invariant state → Good value →
    Invariant (state.bind scope name value)
  write : ∀ {state} (output : String), Invariant state → Invariant (state.write output)
  count : ∀ {state}, Invariant state → Invariant state.countClosure
  openScope : ∀ {state bindings} (outer : Option ScopeId), Invariant state →
    (∀ entry ∈ bindings, Good entry.2) → Invariant (state.openScope outer bindings)
  find : ∀ {state scope name value}, Invariant state → state.find? scope name = some value →
    Good value

/-- Nothing is asked of states and objects. -/
def Invariance.none : Invariance where
  Invariant _ := True
  Good _ := True
  hereditary := .true
  bind _ _ _ _ := trivial
  write _ _ := trivial
  count _ := trivial
  openScope _ _ _ := trivial
  find _ _ := trivial

/-- What may be said of the run of a text in a scope: how it changes the state
and with which signal it may end, besides the properties that it keeps. -/
structure Logic extends Invariance where
  Step : ScopeId → List Stmt → State → Option Signal → State → Prop
  refl : ∀ {scope text} (state : State), Step scope text state none state
  trans : ∀ {scope text before middle raised after}, Step scope text before none middle →
    Step scope text middle raised after → Step scope text before raised after
  mono : ∀ {scope text larger before raised after}, text ⊆ larger →
    Step scope text before raised after → Step scope larger before raised after
  error : ∀ {scope text} (cause : RuntimeError) (state : State),
    Step scope text state (some (.error cause)) state
  /-- A return statement of the text is run. -/
  returns : ∀ {scope text expression} (value : Object) (state : State),
    .return expression ∈ text → Step scope text state (some (.return value)) state
  /-- A binding of the text is run. -/
  binds : ∀ {scope text name expression} (value : Object) (state : State),
    .bind name expression ∈ text → Step scope text state none (state.bind scope name value)
  writes : ∀ {scope text} (output : String) (state : State),
    Step scope text state none (state.write output)
  counts : ∀ {scope text} (state : State), Step scope text state none state.countClosure
  /-- A call runs another text in a scope of its own. -/
  calls : ∀ {scope text outer bindings before raised after},
    Step before.scopes.size text (before.openScope outer bindings) raised after →
    Step scope [] before (raised.bind Signal.uncaught) after

namespace Logic

/-- What a logic allows a run to end with: the invariant is kept, the object is
as asked for, and the step is one that the logic knows. -/
def Allows {α : Type} (logic : Logic) (scope : ScopeId) (text : List Stmt) (post : α → Prop)
    (before : State) : Outcome α → Prop
  | .value result after =>
      post result ∧ logic.Invariant after ∧ logic.Step scope text before none after
  | .signal raised after =>
      raised.Carries logic.Good ∧ logic.Invariant after ∧
        logic.Step scope text before (some raised) after
  | .exhausted => True

/-- The judgement of a logic on an action that evaluates a text in a scope. -/
def Holds {α : Type} (logic : Logic) (scope : ScopeId) (text : List Stmt) (post : α → Prop)
    (action : Action α) : Prop :=
  ∀ state, logic.Invariant state → logic.Allows scope text post state (action state)

variable (logic : Logic)

/-- Objects that all have the property of a logic. -/
def GoodList (values : List Object) : Prop :=
  ∀ value ∈ values, logic.Good value

/-- Entries of a hash whose keys and values have the property of a logic. -/
def GoodEntries (entries : Dictionary HashKey (Object × Object)) : Prop :=
  ∀ entry ∈ entries, logic.Good entry.2.1 ∧ logic.Good entry.2.2

/-- The judgement of a logic holds of all answers to calls. -/
def Answers (call : Caller) : Prop :=
  ∀ scope function arguments, logic.Good function → logic.GoodList arguments →
    logic.Holds scope [] logic.Good (call function arguments)

variable {logic}

theorem Allows.behind {α : Type} {scope : ScopeId} {text : List Stmt} {post : α → Prop}
    {before middle : State} {outcome : Outcome α}
    (allows : logic.Allows scope text post middle outcome)
    (step : logic.Step scope text before none middle) :
    logic.Allows scope text post before outcome := by
  cases outcome with
  | exhausted => trivial
  | signal raised after => exact ⟨allows.1, allows.2.1, logic.trans step allows.2.2⟩
  | value result after => exact ⟨allows.1, allows.2.1, logic.trans step allows.2.2⟩

namespace Holds

variable {α β : Type} {scope : ScopeId} {text more : List Stmt}

theorem value {post : α → Prop} {result : α} (satisfies : post result) :
    logic.Holds scope text post (pure result) :=
  fun state invariant => ⟨satisfies, invariant, logic.refl state⟩

theorem error {post : α → Prop} (cause : RuntimeError) :
    logic.Holds scope text post (.raise (.error cause)) :=
  fun state invariant => ⟨trivial, invariant, logic.error cause state⟩

theorem ofExcept {post : α → Prop} {outcome : Except RuntimeError α}
    (ok : ∀ result, outcome = .ok result → post result) :
    logic.Holds scope text post (.ofExcept outcome) := by
  cases outcome with
  | ok result => exact value (ok result rfl)
  | error cause => exact error cause

/-- One run behind another. -/
theorem bind {middle : α → Prop} {post : β → Prop} {action : Action α} {next : α → Action β}
    (first : logic.Holds scope text middle action)
    (second : ∀ result, middle result → logic.Holds scope text post (next result)) :
    logic.Holds scope text post (action >>= next) := by
  intro before invariant
  have firstRun := first before invariant
  rw [Action.bind_apply]
  cases ran : action before with
  | exhausted => trivial
  | signal raised state =>
    rw [ran] at firstRun
    exact firstRun
  | value result state =>
    rw [ran] at firstRun
    rcases firstRun with ⟨satisfies, kept, step⟩
    exact (second result satisfies state kept).behind step

/-- The text of a run may be longer than what was evaluated. -/
theorem mono {post : α → Prop} {action : Action α} (subset : text ⊆ more)
    (holds : logic.Holds scope text post action) : logic.Holds scope more post action := by
  intro state invariant
  have run := holds state invariant
  cases ran : action state with
  | exhausted => trivial
  | signal raised next =>
    rw [ran] at run
    exact ⟨run.1, run.2.1, logic.mono subset run.2.2⟩
  | value result next =>
    rw [ran] at run
    exact ⟨run.1, run.2.1, logic.mono subset run.2.2⟩

theorem first {post : α → Prop} {action : Action α}
    (holds : logic.Holds scope text post action) :
    logic.Holds scope (text ++ more) post action :=
  holds.mono (List.subset_append_left text more)

theorem second {post : α → Prop} {action : Action α}
    (holds : logic.Holds scope text post action) :
    logic.Holds scope (more ++ text) post action :=
  holds.mono (List.subset_append_right more text)

theorem tail {statement : Stmt} {post : α → Prop} {action : Action α}
    (holds : logic.Holds scope text post action) :
    logic.Holds scope (statement :: text) post action :=
  holds.mono (List.subset_cons_self statement text)

theorem assign {name : String} {expression : Expr} {value : Object}
    (member : .bind name expression ∈ text) (good : logic.Good value) :
    logic.Holds scope text (fun _ => True) (.modify (State.bind scope name value)) :=
  fun state invariant =>
    ⟨trivial, logic.bind scope name invariant good, logic.binds value state member⟩

theorem leave {expression : Expr} {value : Object} (member : .return expression ∈ text)
    (good : logic.Good value) :
    logic.Holds scope text logic.Good (.raise (.return value)) :=
  fun state invariant => ⟨good, invariant, logic.returns value state member⟩

theorem write (output : String) :
    logic.Holds scope text (fun _ => True) (.modify (State.write output)) :=
  fun state invariant => ⟨trivial, logic.write output invariant, logic.writes output state⟩

theorem identifier (name : String) :
    logic.Holds scope text logic.Good (evalIdentifier scope name) := by
  intro state invariant
  simp only [evalIdentifier]
  cases found : state.find? scope name with
  | some value => exact ⟨logic.find invariant found, invariant, logic.refl state⟩
  | none =>
    cases Builtin.ofName? name with
    | some builtin => exact ⟨logic.hereditary.builtin builtin, invariant, logic.refl state⟩
    | none => exact ⟨trivial, invariant, logic.error _ state⟩

theorem closure (parameters : List String) (body : Monkey.Block) :
    logic.Holds scope text logic.Good (makeClosure scope parameters body) :=
  fun state invariant =>
    ⟨logic.hereditary.function _, logic.count invariant, logic.counts state⟩

/-- A call catches the return of the text that it runs. -/
theorem call {outer : ScopeId} {bindings : Dictionary String Object}
    {action : ScopeId → Action Object} (good : ∀ entry ∈ bindings, logic.Good entry.2)
    (holds : ∀ inner, logic.Holds inner text logic.Good (action inner)) :
    logic.Holds scope [] logic.Good
      (.inScope outer bindings fun inner => (action inner).catchReturn) := by
  intro state invariant
  have run := holds state.scopes.size _ (logic.openScope (some outer) invariant good)
  simp only [Action.inScope, Action.catchReturn]
  cases ran : action state.scopes.size (state.openScope (some outer) bindings) with
  | exhausted => trivial
  | value result next =>
    rw [ran] at run
    exact ⟨run.1, run.2.1, logic.calls run.2.2⟩
  | signal raised next =>
    rw [ran] at run
    cases raised with
    | «return» value => exact ⟨run.1, run.2.1, logic.calls run.2.2⟩
    | error cause => exact ⟨trivial, run.2.1, logic.calls run.2.2⟩

end Holds

theorem goodEntries_insert {entries : Dictionary HashKey (Object × Object)} {slot : HashKey}
    {key value : Object} (good : logic.GoodEntries entries) (goodKey : logic.Good key)
    (goodValue : logic.Good value) :
    logic.GoodEntries (Dictionary.insert slot (key, value) entries) :=
  Dictionary.forall_mem_insert ⟨goodKey, goodValue⟩ good

section Evaluation

variable {call : Caller}

mutual

/-- The judgement holds of the evaluation of an expression. -/
theorem expr (answers : logic.Answers call) (scope : ScopeId) : ∀ expression : Expr,
    logic.Holds scope expression.statements logic.Good (expression.eval call scope)
  | .ident name => .identifier name
  | .int _ => .value (logic.hereditary.integer _)
  | .bool _ => .value (logic.hereditary.boolean _)
  | .string _ => .value (logic.hereditary.string _)
  | .unary _ operand =>
      (expr answers scope operand).bind fun _ _ => .ofExcept fun _ => logic.hereditary.unary
  | .binary left _ right =>
      (expr answers scope left).first.bind fun _ _ =>
        (expr answers scope right).second.bind fun _ _ =>
          .ofExcept fun _ => logic.hereditary.binary
  | .cond condition consequence none => by
      refine (expr answers scope condition).first.bind fun value _ => ?_
      split
      · exact (block answers scope logic.hereditary.null consequence).second
      · exact .value logic.hereditary.null
  | .cond condition consequence (some alternative) => by
      refine (expr answers scope condition).first.bind fun value _ => ?_
      split
      · exact (block answers scope logic.hereditary.null consequence).first.second
      · exact (block answers scope logic.hereditary.null alternative).second.second
  | .function parameters body => .closure parameters body
  | .call callee arguments =>
      (expr answers scope callee).first.bind fun function good =>
        (list answers scope arguments).second.bind fun values goodValues =>
          (answers scope function values good goodValues).mono (List.nil_subset _)
  | .array elements =>
      (list answers scope elements).bind fun _ good =>
        .value ((logic.hereditary.array_iff _).mpr good)
  | .index left position =>
      (expr answers scope left).first.bind fun _ whole =>
        (expr answers scope position).second.bind fun _ _ =>
          .ofExcept fun _ => logic.hereditary.index whole
  | .hash entries =>
      (pairs answers scope (List.forall_mem_nil _) entries).bind fun _ good =>
        .value ((logic.hereditary.hash_iff _).mpr good)

/-- The judgement holds of the evaluation of expressions. -/
theorem list (answers : logic.Answers call) (scope : ScopeId) : ∀ expressions : List Expr,
    logic.Holds scope (Expr.listStatements expressions) logic.GoodList
      (Expr.evalList call scope expressions)
  | [] => .value (List.forall_mem_nil _)
  | expression :: rest =>
      (expr answers scope expression).first.bind fun _ good =>
        (list answers scope rest).second.bind fun _ others =>
          .value (List.forall_mem_cons.mpr ⟨good, others⟩)

/-- The judgement holds of the evaluation of the pairs of a hash literal. -/
theorem pairs (answers : logic.Answers call) (scope : ScopeId)
    {entries : Dictionary HashKey (Object × Object)} (good : logic.GoodEntries entries) :
    ∀ pairs : List (Expr × Expr), logic.Holds scope (Expr.pairStatements pairs) logic.GoodEntries
      (Expr.evalPairs call scope entries pairs)
  | [] => .value good
  | (key, value) :: rest =>
      (expr answers scope key).first.bind fun _ goodKey =>
        .bind (.ofExcept fun _ _ => trivial) fun _ (_ : True) =>
          (expr answers scope value).first.second.bind fun _ goodValue =>
            (pairs answers scope (goodEntries_insert good goodKey goodValue) rest).second.second

/-- The judgement holds of the evaluation of a statement. -/
theorem stmt (answers : logic.Answers call) (scope : ScopeId) : ∀ statement : Stmt,
    logic.Holds scope statement.statements logic.Good (statement.eval call scope)
  | .bind _ value =>
      (expr answers scope value).tail.bind fun _ good =>
        .bind (.assign (.head _) good) fun _ _ => .value logic.hereditary.null
  | .return value => (expr answers scope value).tail.bind fun _ good => .leave (.head _) good
  | .expr value => (expr answers scope value).tail

/-- The judgement holds of the evaluation of statements. -/
theorem block (answers : logic.Answers call) (scope : ScopeId) {last : Object}
    (good : logic.Good last) : ∀ statements : List Stmt,
    logic.Holds scope (Block.statements statements) logic.Good
      (Block.evalFrom call scope last statements)
  | [] => .value good
  | statement :: rest =>
      (stmt answers scope statement).first.bind fun _ good =>
        (block answers scope good rest).second

end

end Evaluation

/-! ## Calls -/

/-- The judgement holds of the application of a builtin. -/
theorem builtin {scope : ScopeId} {arguments : List Object} (primitive : Builtin)
    (good : logic.GoodList arguments) :
    logic.Holds scope [] logic.Good (primitive.apply arguments) := by
  refine (Holds.write _).bind fun _ _ => ?_
  unfold Builtin.call
  rcases called : primitive.value arguments with cause | result
  · exact .error cause
  · have goodResult := logic.hereditary.builtinValue good called
    cases result with
    | error cause => exact .error cause
    | _ => exact .value goodResult

/-- The judgement holds of all answers if it holds of those of closures. -/
theorem answers_of_closures {depth : Nat}
    (closures : ∀ scope closure arguments, closure.parameters.length = arguments.length →
      logic.GoodList arguments →
      logic.Holds scope [] logic.Good (Object.apply depth (.function closure) arguments)) :
    logic.Answers (Object.apply depth) := by
  intro scope function arguments _ good
  cases function with
  | function closure =>
    by_cases matching : closure.parameters.length = arguments.length
    · exact closures scope closure arguments matching good
    · unfold Object.apply
      rw [if_neg matching]
      exact .error _
  | builtin primitive =>
    unfold Object.apply
    exact builtin primitive good
  | _ =>
    unfold Object.apply
    exact .error _

/-- The judgement holds of all calls, however deep they are nested. -/
theorem answers_apply (logic : Logic) (depth : Nat) : logic.Answers (Object.apply depth) := by
  induction depth with
  | zero =>
    refine answers_of_closures fun scope closure arguments matching _ => ?_
    unfold Object.apply
    rw [if_pos matching]
    exact fun _ _ => trivial
  | succ depth inductionHypothesis =>
    refine answers_of_closures fun scope closure arguments matching good => ?_
    unfold Object.apply
    rw [if_pos matching]
    refine .call ?_ fun inner =>
      block inductionHypothesis inner logic.hereditary.null closure.body
    intro entry member
    have inside := List.of_mem_zip (Dictionary.mem_of_mem_ofList member)
    exact good _ inside.2

end Logic

end Monkey
