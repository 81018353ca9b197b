import Monkey.Evaluation.Depth
import Monkey.Proofs.Session.History
import Monkey.Proofs.State.Resolution

/-!
# Evaluations that deliver

An evaluation delivers a result if it ends with it, and leaves behind what was there:
it may open scopes and make closures, but it writes nothing and changes no scope that
is there. What is known of a state is then still known behind the evaluation, so the
parts of a program can be taken one by one, calls of functions that call themselves
among them.
-/

namespace Monkey

/-! ## States with all that was there before -/

/-- No scope that was there has changed, and nothing was written. -/
structure State.Undisturbed (before after : State) : Prop where
  size : before.scopes.size ≤ after.scopes.size
  preserved : before.Preserved after
  output : after.output = before.output

namespace State.Undisturbed

variable {before middle after : State} {id : ScopeId} {name : String} {value : Object}

theorem refl (state : State) : state.Undisturbed state :=
  ⟨Nat.le_refl _, fun _ _ => rfl, rfl⟩

theorem trans (first : before.Undisturbed middle) (second : middle.Undisturbed after) :
    before.Undisturbed after where
  size := Nat.le_trans first.size second.size
  preserved id lt :=
    (second.preserved id (Nat.lt_of_lt_of_le lt first.size)).trans (first.preserved id lt)
  output := second.output.trans first.output

theorem countClosure (state : State) : state.Undisturbed state.countClosure :=
  ⟨Nat.le_refl _, fun _ _ => rfl, rfl⟩

theorem openScope (state : State) (outer : Option ScopeId)
    (bindings : Dictionary String Object) :
    state.Undisturbed (state.openScope outer bindings) where
  size := Nat.le_of_lt (Nat.lt_of_lt_of_eq (Nat.lt_succ_self _) (size_openScope ..).symm)
  preserved _ lt := getElem?_openScope_of_ne _ _ _ (Nat.ne_of_lt lt)
  output := rfl

/-- A scope that was not there before may change. -/
theorem bind (undisturbed : before.Undisturbed after) (younger : before.scopes.size ≤ id)
    (name : String) (value : Object) : before.Undisturbed (after.bind id name value) where
  size := (size_bind ..).symm ▸ undisturbed.size
  preserved other lt := by
    rw [getElem?_bind_of_ne _ _ _ (Nat.ne_of_gt (Nat.lt_of_lt_of_le lt younger))]
    exact undisturbed.preserved other lt
  output := undisturbed.output

theorem isolated (undisturbed : before.Undisturbed after) (scope : ScopeId) :
    before.Isolated scope [] after :=
  .of_preserved undisturbed.size undisturbed.preserved

/-- Every name means what it meant before. -/
theorem means (undisturbed : before.Undisturbed after) (means : before.Means id name value) :
    after.Means id name value :=
  means.isolated (undisturbed.isolated id) List.not_mem_nil

theorem find?_eq (undisturbed : before.Undisturbed after) (wellFormed : before.WellFormed)
    (there : id < before.scopes.size) (name : String) :
    after.find? id name = before.find? id name :=
  ((wellFormed.resolves there name).isolated (undisturbed.isolated id) List.not_mem_nil).find?_eq

end State.Undisturbed

/-! ## Actions -/

/-- From the state and from all that leave it undisturbed, the action ends with a result
that has the property, and leaves what it started from undisturbed. -/
def Action.Delivers {α : Type} (state : State) (post : α → Prop) (action : Action α) : Prop :=
  ∀ now, state.Undisturbed now →
    ∃ result after, action now = .value result after ∧ post result ∧ now.Undisturbed after

namespace Action.Delivers

variable {α β : Type} {state now : State} {post : α → Prop} {action : Action α}

theorem done {result : α} (holds : post result) : (pure result : Action α).Delivers state post :=
  fun now _ => ⟨result, now, rfl, holds, .refl now⟩

/-- What an action delivers it still delivers later. -/
theorem later (delivers : action.Delivers state post) (undisturbed : state.Undisturbed now) :
    action.Delivers now post :=
  fun next behind => delivers next (undisturbed.trans behind)

/-- What goes on where an action ends delivers what it goes on with. -/
theorem of_continues {last : β → Prop} {whole : Action β} {next : α → Action β}
    (continues : ∀ before result after, action before = .value result after →
      whole before = next result after)
    (delivers : action.Delivers state post)
    (rest : ∀ result, post result → (next result).Delivers state last) :
    whole.Delivers state last := by
  intro now undisturbed
  obtain ⟨result, middle, ran, holds, step⟩ := delivers now undisturbed
  obtain ⟨answer, after, goesOn, reached, more⟩ :=
    rest result holds middle (undisturbed.trans step)
  exact ⟨answer, after, (continues now result middle ran).trans goesOn, reached, step.trans more⟩

theorem mono {more : α → Prop} (delivers : action.Delivers state post)
    (implies : ∀ result, post result → more result) : action.Delivers state more :=
  .of_continues (fun _ _ _ => id) delivers fun result holds => .done (implies result holds)

theorem bind {last : β → Prop} {next : α → Action β} (delivers : action.Delivers state post)
    (rest : ∀ result, post result → (next result).Delivers state last) :
    (action >>= next).Delivers state last := by
  refine of_continues (fun before result after ran => ?_) delivers rest
  rw [bind_apply, ran]

/-- One result is all there is to go on with. -/
theorem andThen {last : β → Prop} {next : α → Action β} {result : α}
    (delivers : action.Delivers state (· = result)) (rest : (next result).Delivers state last) :
    (action >>= next).Delivers state last := by
  refine delivers.bind ?_
  rintro _ rfl
  exact rest

theorem ofExcept {except : Except RuntimeError α} {result : α} (ok : except = .ok result)
    (holds : post result) : (Action.ofExcept except).Delivers state post := by
  subst ok
  exact done holds

section Returns

variable {last : Object → Prop} {start : Action Object}

/-- A function that goes on behind a first step delivers what it goes on with. -/
theorem catchReturn_andThen {next : α → Action Object} {result : α}
    (delivers : action.Delivers state (· = result))
    (rest : ((next result).catchReturn).Delivers state last) :
    ((action >>= next).catchReturn).Delivers state last := by
  have goesOn : ∀ value, value = result → ((next value).catchReturn).Delivers state last := by
    rintro _ rfl
    exact rest
  refine of_continues (fun before value after ran => ?_) delivers goesOn
  rw [catchReturn, bind_apply, ran, catchReturn]

/-- A function that comes to its end delivers its value. -/
theorem catchReturn (delivers : start.Delivers state last) :
    (start.catchReturn).Delivers state last := by
  refine of_continues (fun before result after ran => ?_) delivers fun result => .done
  rw [Action.catchReturn, ran]
  rfl

/-- A function that returns delivers what it returns. -/
theorem catchReturn_raise {value : Object} (holds : last value) (next : α → Action Object) :
    ((Action.raise (.return value) >>= next).catchReturn).Delivers state last :=
  fun now _ => ⟨value, now, rfl, holds, .refl now⟩

end Returns

end Action.Delivers

/-! ## Expressions and statements -/

section Evaluation

variable {call : Caller} {scope : ScopeId} {state : State} {post : Object → Prop}
  {first second value : Object}

theorem Expr.delivers_ident {name : String} (means : state.Means scope name value) :
    ((Expr.ident name).eval call scope).Delivers state (· = value) := by
  intro now undisturbed
  rw [Expr.eval]
  exact ⟨value, now, (undisturbed.means means).eval, rfl, .refl now⟩

theorem Expr.delivers_int (number : Int64) :
    ((Expr.int number).eval call scope).Delivers state (· = .integer number) := by
  rw [Expr.eval]
  exact .done rfl

/-- The identity of a closure depends on how many were made before. -/
theorem Expr.delivers_function (parameters : List String) (body : Block) :
    ((Expr.function parameters body).eval call scope).Delivers state fun value =>
      ∃ identity, value = .function ⟨identity, parameters, body, scope⟩ := by
  intro now _
  rw [Expr.eval]
  exact ⟨_, _, rfl, ⟨now.closures, rfl⟩, .countClosure now⟩

theorem Expr.delivers_binary {left right : Expr} {op : BinaryOp}
    (leftOperand : (left.eval call scope).Delivers state (· = first))
    (rightOperand : (right.eval call scope).Delivers state (· = second))
    (applied : op.apply first second = .ok value) :
    ((Expr.binary left op right).eval call scope).Delivers state (· = value) := by
  rw [Expr.eval]
  exact leftOperand.andThen (rightOperand.andThen (.ofExcept applied rfl))

/-- Expressions deliver their values from left to right. -/
theorem Expr.delivers_list {expressions : List Expr} {posts : List (Object → Prop)}
    (each : List.Forall₂ (fun expression post => (expression.eval call scope).Delivers state post)
      expressions posts) :
    (Expr.evalList call scope expressions).Delivers state
      (List.Forall₂ (fun post value => post value) posts) := by
  induction each with
  | nil =>
    rw [Expr.evalList]
    exact .done .nil
  | cons delivers _ inductionHypothesis =>
    rw [Expr.evalList]
    refine delivers.bind fun value holds => ?_
    exact inductionHypothesis.bind fun values others => .done (.cons holds others)

theorem Expr.delivers_values {expressions : List Expr} {values : List Object}
    (each : List.Forall₂
      (fun expression value => (expression.eval call scope).Delivers state (· = value))
      expressions values) :
    (Expr.evalList call scope expressions).Delivers state (· = values) := by
  have listed := Expr.delivers_list
    (List.forall₂_map_right_iff (f := fun value => (· = value)).mpr each)
  refine listed.mono fun results same => ?_
  have equal : List.Forall₂ (· = ·) results values := (List.forall₂_map_left_iff.mp same).flip
  rwa [List.forall₂_eq_eq_eq] at equal

theorem Expr.delivers_array {elements : List Expr} {values : List Object}
    (each : List.Forall₂
      (fun element value => (element.eval call scope).Delivers state (· = value))
      elements values) :
    ((Expr.array elements).eval call scope).Delivers state (· = .array values) := by
  rw [Expr.eval]
  exact (Expr.delivers_values each).andThen (.done rfl)

/-- A call delivers what is answered to the values of the arguments. -/
theorem Expr.delivers_call {callee : Expr} {arguments : List Expr} {posts : List (Object → Prop)}
    (function : (callee.eval call scope).Delivers state (· = value))
    (each : List.Forall₂ (fun argument post => (argument.eval call scope).Delivers state post)
      arguments posts)
    (answers : ∀ values, List.Forall₂ (fun post value => post value) posts values →
      (call value values).Delivers state post) :
    ((Expr.call callee arguments).eval call scope).Delivers state post := by
  rw [Expr.eval]
  exact function.andThen ((Expr.delivers_list each).bind answers)

theorem Expr.delivers_call_of_values {callee : Expr} {arguments : List Expr} {values : List Object}
    (function : (callee.eval call scope).Delivers state (· = value))
    (each : List.Forall₂
      (fun argument value => (argument.eval call scope).Delivers state (· = value))
      arguments values)
    (answers : (call value values).Delivers state post) :
    ((Expr.call callee arguments).eval call scope).Delivers state post := by
  rw [Expr.eval]
  exact function.andThen ((Expr.delivers_values each).andThen answers)

/-- A condition delivers what the branch that is taken delivers. -/
theorem Expr.delivers_cond {condition : Expr} {consequence alternative : Block}
    (decides : (condition.eval call scope).Delivers state (· = value))
    (branch : (Block.evalFrom call scope .null
      (if value.isTruthy then consequence else alternative)).Delivers state post) :
    ((Expr.cond condition consequence (some alternative)).eval call scope).Delivers state post := by
  rw [Expr.eval]
  refine decides.andThen ?_
  cases truthy : value.isTruthy with
  | true =>
    rw [truthy, if_pos rfl] at branch
    exact branch
  | false =>
    rw [truthy, if_neg Bool.false_ne_true] at branch
    exact branch

theorem Block.delivers_singleton {expression : Expr}
    (delivers : (expression.eval call scope).Delivers state post) (last : Object) :
    (Block.evalFrom call scope last [.expr expression]).Delivers state post := by
  rw [Block.evalFrom, Stmt.eval]
  exact delivers.bind fun value holds => .done holds

end Evaluation

/-! ## Bindings of functions -/

namespace State

variable {state : State} {scope outer : ScopeId} {bindings : Dictionary String Object}
  (name : String) (parameters : List String) (body : Block)

/-- Binds a name to a new function. -/
def define (scope : ScopeId) (name : String) (parameters : List String) (body : Block)
    (state : State) : State :=
  state.countClosure.bind scope name (.function ⟨state.closures, parameters, body, scope⟩)

theorem isolated_define (state : State) (scope : ScopeId) :
    state.Isolated scope [name] (state.define scope name parameters body) := by
  have counted : state.Isolated scope [name] state.countClosure := .of_scopes_eq rfl
  exact counted.trans (.bind (List.mem_singleton_self name) _ _)

/-- The name means the function. -/
theorem means_define (there : scope < state.scopes.size) :
    (state.define scope name parameters body).Means scope name
      (.function ⟨state.closures, parameters, body, scope⟩) := by
  refine .bound (.own ?_)
  rw [own?, define, getElem?_bind_self]
  simp [countClosure, there]

theorem WellFormed.define (wellFormed : state.WellFormed) (there : scope < state.scopes.size) :
    (state.define scope name parameters body).WellFormed := by
  have counted : state.countClosure.WellFormed := ⟨wellFormed.older, wellFormed.owned⟩
  exact counted.bind scope name (.function there)

/-- A function is added to a frame. -/
theorem Frame.define (frame : state.Frame scope bindings outer) :
    (state.define scope name parameters body).Frame scope
      (Dictionary.insert name (.function ⟨state.closures, parameters, body, scope⟩) bindings)
      outer := by
  have counted : state.countClosure.Frame scope bindings outer := ⟨frame.there, frame.older⟩
  exact counted.bind name _

end State

theorem Stmt.eval_define (call : Caller) (scope : ScopeId) (name : String)
    (parameters : List String) (body : Block) (state : State) :
    (Stmt.bind name (.function parameters body)).eval call scope state =
      .value .null (state.define scope name parameters body) := by
  rw [Stmt.eval, Expr.eval]
  rfl

/-! ## Calls -/

namespace Object

variable {depth : Nat} {state : State} {post : Object → Prop} {arguments : List Object}

/-- A builtin delivers its value unless it writes. -/
theorem delivers_apply_builtin {primitive : Builtin} {value : Object}
    (silent : primitive.written arguments = "") (applied : primitive.value arguments = .ok value)
    (sound : value.isError = false) :
    (Object.apply depth (.builtin primitive) arguments).Delivers state (· = value) := by
  intro now _
  have unwritten : now.write "" = now := by
    rw [State.write, String.append_empty]
  refine ⟨value, now, ?_, rfl, .refl now⟩
  rw [Object.apply, Builtin.apply, Action.bind_apply, Action.modify, silent, unwritten,
    Builtin.call, applied]
  cases value with
  | error => contradiction
  | _ => rfl

section Functions

variable {closure : Closure}

/-- A function delivers what its body ends with when it is begun in a new frame that binds
the parameters to the arguments, if nothing that was there before the call is disturbed. -/
theorem delivers_apply_of_opened (matching : closure.parameters.length = arguments.length)
    (there : closure.scope < state.scopes.size)
    (body : ∀ now opened, state.Undisturbed now → now.Undisturbed opened →
      opened.Frame now.scopes.size (Dictionary.ofList (closure.parameters.zip arguments))
          closure.scope →
        ∃ result after,
          (Block.eval (Object.apply depth) now.scopes.size closure.body).catchReturn opened =
              .value result after ∧
            post result ∧ now.Undisturbed after) :
    (Object.apply (depth + 1) (.function closure) arguments).Delivers state post := by
  intro now undisturbed
  have older := Nat.lt_of_lt_of_le there undisturbed.size
  simp only [Object.apply, matching, if_true, Action.inScope]
  exact body now _ undisturbed (.openScope ..) (.openScope older _)

/-- A function delivers what its body delivers in its frame. -/
theorem delivers_apply (matching : closure.parameters.length = arguments.length)
    (there : closure.scope < state.scopes.size)
    (body : ∀ now id, state.Undisturbed now →
      now.Frame id (Dictionary.ofList (closure.parameters.zip arguments)) closure.scope →
        ((Block.eval (Object.apply depth) id closure.body).catchReturn).Delivers now post) :
    (Object.apply (depth + 1) (.function closure) arguments).Delivers state post := by
  refine delivers_apply_of_opened matching there fun now opened undisturbed opens frame => ?_
  obtain ⟨result, after, ran, holds, step⟩ :=
    body opened _ (undisturbed.trans opens) frame opened (.refl opened)
  exact ⟨result, after, ran, holds, opens.trans step⟩

/-- A function that begins with the binding of another one delivers what the rest of its body
delivers in a frame that binds the other function as well. -/
theorem delivers_apply_define {name : String} {parameters : List String} {inner : Block}
    {rest : List Stmt} (begins : closure.body = .bind name (.function parameters inner) :: rest)
    (matching : closure.parameters.length = arguments.length)
    (there : closure.scope < state.scopes.size)
    (body : ∀ now id identity, state.Undisturbed now →
      now.Frame id (Dictionary.ofList (closure.parameters.zip arguments ++
          [(name, .function ⟨identity, parameters, inner, id⟩)])) closure.scope →
        ((Block.evalFrom (Object.apply depth) id .null rest).catchReturn).Delivers now post) :
    (Object.apply (depth + 1) (.function closure) arguments).Delivers state post := by
  refine delivers_apply_of_opened matching there fun now opened undisturbed opens frame => ?_
  have defines : now.Undisturbed (opened.define now.scopes.size name parameters inner) :=
    (opens.trans (.countClosure opened)).bind (Nat.le_refl _) _ _
  have both := frame.define name parameters inner
  rw [← Dictionary.ofList_append_singleton] at both
  obtain ⟨result, after, ran, holds, step⟩ :=
    body _ _ _ (undisturbed.trans defines) both _ (.refl _)
  refine ⟨result, after, ?_, holds, defines.trans step⟩
  rw [begins, Block.eval, Block.evalFrom, Action.catchReturn, Action.bind_apply, Stmt.eval_define]
  exact ran

end Functions

end Object

/-- A call of a builtin by its name. -/
theorem Expr.delivers_builtin {depth : Nat} {scope : ScopeId} {state : State} {name : String}
    {primitive : Builtin} {arguments : List Expr} {values : List Object} {value : Object}
    (named : state.Means scope name (.builtin primitive))
    (each : List.Forall₂
      (fun argument value =>
        (argument.eval (Object.apply depth) scope).Delivers state (· = value))
      arguments values)
    (silent : primitive.written values = "") (applied : primitive.value values = .ok value)
    (sound : value.isError = false) :
    ((Expr.call (.ident name) arguments).eval (Object.apply depth) scope).Delivers state
      (· = value) :=
  Expr.delivers_call_of_values (Expr.delivers_ident named) each
    (Object.delivers_apply_builtin silent applied sound)

/-! ## Sessions -/

namespace Session

variable {depth : Nat} {scope : ScopeId} {state after : State} {source : String} {value : Object}

/-- A source that is read as a program finishes with the value of its statements. -/
theorem run_of_value {program : Program} (read : Draft.ofSource source = ⟨program, []⟩)
    (ran : Block.eval (Object.apply depth) scope program state = .value value after)
    (clean : value.Clean) : run depth scope source state = .finished value after := by
  rw [run_of_clean (by rw [read]; rfl), read, evaluate, Program.eval_of_clean ran clean]

/-- A source that is read as one expression finishes with the value that the expression
delivers, however much more deeply calls may be nested. -/
theorem finishes_of_delivers {expression : Expr}
    (read : Draft.ofSource source = ⟨[.expr expression], []⟩)
    (delivers : (expression.eval (Object.apply depth) scope).Delivers state (· = value))
    (clean : value.Clean) :
    ∃ after, (∀ deeper, depth ≤ deeper → run deeper scope source state = .finished value after) ∧
      state.Undisturbed after := by
  obtain ⟨_, after, ran, rfl, undisturbed⟩ :=
    Block.delivers_singleton delivers .null state (.refl state)
  refine ⟨after, fun deeper le => run_of_value read ?_ clean, undisturbed⟩
  rcases Block.evalFrom_extends (Object.apply_extends le) scope .null [.expr expression] state with
    exhausted | same
  · rw [ran] at exhausted
    contradiction
  · exact same.symm.trans ran

end Session

end Monkey
