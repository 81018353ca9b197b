import Monkey.Proofs.Evaluation.Logic

/-!
# Isolation of scopes

A text that is evaluated in a scope changes that scope alone, and there only the
names that its own bindings name. What is called inside the text runs in scopes
that are opened for it, and leaves every older scope as it was.
-/

namespace Monkey

/-- The scope has the same scope around it as before, still binds every name that
it bound, and binds all names but the given ones to the same objects. -/
structure Scope.Grows (names : List String) (before after : Scope) : Prop where
  outer : after.outer = before.outer
  keeps : ∀ name, (Dictionary.find? name before.bindings).isSome →
    (Dictionary.find? name after.bindings).isSome
  others : ∀ name, name ∉ names →
    Dictionary.find? name after.bindings = Dictionary.find? name before.bindings

namespace Scope.Grows

variable {names more : List String} {before middle after : Scope}

theorem refl (scope : Scope) : scope.Grows names scope :=
  ⟨rfl, fun _ => id, fun _ _ => rfl⟩

theorem trans (first : before.Grows names middle) (second : middle.Grows names after) :
    before.Grows names after where
  outer := second.outer.trans first.outer
  keeps name bound := second.keeps name (first.keeps name bound)
  others name foreign := (second.others name foreign).trans (first.others name foreign)

theorem mono (subset : names ⊆ more) (grows : before.Grows names after) :
    before.Grows more after :=
  { grows with
    others := fun name foreign => grows.others name fun member => foreign (subset member) }

/-- A scope grows at the name that is bound in it. -/
theorem insert {name : String} (member : name ∈ names) (value : Object) (scope : Scope) :
    scope.Grows names { scope with bindings := Dictionary.insert name value scope.bindings } where
  outer := rfl
  keeps other bound := by
    by_cases same : name = other
    · simp [same]
    · rwa [Dictionary.find?_insert_of_ne same]
  others other foreign := by
    have ne : name ≠ other := fun same => foreign (same ▸ member)
    exact Dictionary.find?_insert_of_ne ne value scope.bindings

end Scope.Grows

/-- Every scope that was open before is the same afterwards. -/
def State.Preserved (before after : State) : Prop :=
  ∀ id < before.scopes.size, after.scopes[id]? = before.scopes[id]?

/-- No scope that was open before has changed but the given one, and that one
only at the given names. -/
structure State.Isolated (scope : ScopeId) (names : List String) (before after : State) :
    Prop where
  size : before.scopes.size ≤ after.scopes.size
  others : ∀ id < before.scopes.size, id ≠ scope → after.scopes[id]? = before.scopes[id]?
  own : ∀ found, before.scopes[scope]? = some found →
    ∃ later, after.scopes[scope]? = some later ∧ found.Grows names later

namespace State.Isolated

variable {scope : ScopeId} {names more : List String} {before middle after : State}

theorem of_scopes_eq (same : after.scopes = before.scopes) :
    before.Isolated scope names after where
  size := Nat.le_of_eq (congrArg Array.size same.symm)
  others id _ _ := by rw [same]
  own found there := ⟨found, by rw [same, there], .refl found⟩

theorem trans (first : before.Isolated scope names middle)
    (second : middle.Isolated scope names after) : before.Isolated scope names after where
  size := Nat.le_trans first.size second.size
  others id lt ne :=
    (second.others id (Nat.lt_of_lt_of_le lt first.size) ne).trans (first.others id lt ne)
  own found there := by
    rcases first.own found there with ⟨grown, between, step⟩
    rcases second.own grown between with ⟨later, behind, last⟩
    exact ⟨later, behind, step.trans last⟩

theorem mono (subset : names ⊆ more) (isolated : before.Isolated scope names after) :
    before.Isolated scope more after :=
  { isolated with
    own := fun found there =>
      (isolated.own found there).imp fun _ ⟨behind, grows⟩ => ⟨behind, grows.mono subset⟩ }

/-- A binding changes the scope in which it stands. -/
theorem bind {name : String} (member : name ∈ names) (value : Object) (state : State) :
    state.Isolated scope names (state.bind scope name value) where
  size := by simp [State.bind]
  others id _ ne := by simp [State.bind, Array.getElem?_modify, ne.symm]
  own found there := by
    refine ⟨_, ?_, .insert member value found⟩
    simp [State.bind, Array.getElem?_modify, there]

/-- What runs in a scope of its own preserves all older ones. -/
theorem preserved {outer : Option ScopeId} {bindings : Dictionary String Object}
    (isolated : (before.openScope outer bindings).Isolated before.scopes.size names after) :
    before.Preserved after := by
  intro id lt
  have opened : id < (before.openScope outer bindings).scopes.size := by
    simp only [State.openScope, Array.size_push]
    exact Nat.lt_succ_of_lt lt
  rw [isolated.others id opened (Nat.ne_of_lt lt)]
  simp [State.openScope, Array.getElem?_push, Nat.ne_of_lt lt]

theorem of_preserved (size : before.scopes.size ≤ after.scopes.size)
    (preserved : before.Preserved after) : before.Isolated scope names after where
  size := size
  others id lt _ := preserved id lt
  own found there := by
    have lt : scope < before.scopes.size := (Array.getElem?_eq_some_iff.mp there).1
    exact ⟨found, (preserved scope lt).trans there, .refl found⟩

end State.Isolated

/-- Runs that change their own scope alone, and there only what their text
binds. -/
def Logic.isolated : Logic where
  toInvariance := .none
  Step scope text before _ after := before.Isolated scope (targets text) after
  refl _ := .of_scopes_eq rfl
  trans first second := first.trans second
  mono subset isolated := isolated.mono (targets_subset subset)
  error _ _ := .of_scopes_eq rfl
  returns _ _ _ := .of_scopes_eq rfl
  binds _ _ member := .bind (mem_targets_iff.mpr ⟨_, member⟩) _ _
  writes _ _ := .of_scopes_eq rfl
  counts _ := .of_scopes_eq rfl
  calls isolated := by
    refine .of_preserved (Nat.le_trans ?_ isolated.size) isolated.preserved
    simp [State.openScope]

/-- The state in which an action ends, with a value or with a signal. -/
def Outcome.state? {α : Type} : Outcome α → Option State
  | .value _ state => some state
  | .signal _ state => some state
  | .exhausted => none

theorem Logic.Holds.isolated {α : Type} {scope : ScopeId} {text : List Stmt} {post : α → Prop}
    {action : Action α} (holds : Logic.isolated.Holds scope text post action)
    {before after : State} (finished : (action before).state? = some after) :
    before.Isolated scope (targets text) after := by
  have run := holds before trivial
  cases ran : action before with
  | exhausted => simp [ran, Outcome.state?] at finished
  | value result state =>
    rw [ran] at finished run
    cases finished
    exact run.2.2
  | signal raised state =>
    rw [ran] at finished run
    cases finished
    exact run.2.2

/-- Whatever is evaluated in a scope, however it ends and however deep the calls
in it are nested: all other scopes stay as they are, and the scope itself
changes only at names that are bound by the text outside the bodies of its
functions. A call changes no scope that is there. -/
theorem State.isolated_of_evaluation (depth : Nat) (before after : State) :
    (∀ (scope : ScopeId) (expression : Expr),
      (expression.eval (Object.apply depth) scope before).state? = some after →
        before.Isolated scope (targets expression.statements) after) ∧
    (∀ (scope : ScopeId) (statement : Stmt),
      (statement.eval (Object.apply depth) scope before).state? = some after →
        before.Isolated scope (targets statement.statements) after) ∧
    (∀ (scope : ScopeId) (block : Block),
      (block.eval (Object.apply depth) scope before).state? = some after →
        before.Isolated scope (targets (Block.statements block)) after) ∧
    (∀ (function : Object) (arguments : List Object),
      (Object.apply depth function arguments before).state? = some after →
        before.Preserved after) := by
  have answers := Logic.isolated.answers_apply depth
  refine ⟨?_, ?_, ?_, ?_⟩
  · exact fun scope expression => (Logic.expr answers scope expression).isolated
  · exact fun scope statement => (Logic.stmt answers scope statement).isolated
  · exact fun scope block => (Logic.block answers scope trivial block).isolated
  · intro function arguments finished id lt
    -- The scope of a call may be any, so it may be one that is not open.
    have isolated := (answers before.scopes.size function arguments trivial
      fun _ _ => trivial).isolated finished
    exact isolated.others id lt (Nat.ne_of_lt lt)

/-- A condition binds the answer of a function that was returned by another,
both of which bind names of the scopes around them. -/
theorem State.isolated_of_nested_calls :
    (∃ after,
      (Block.eval (Object.apply 1) 1
        [.bind "f" (.function ["x"]
          [.bind "y" (.ident "x"), .expr (.function [] [.bind "x" (.int 3), .expr (.ident "y")])]),
         .expr (.cond (.bool true) [.bind "z" (.call (.call (.ident "f") [.int 5]) [])] none)]
        ((State.empty.openScope none [("x", .integer 7)]).openScope (some 0)
          [("y", .integer 1)])).state? = some after ∧
      after.scopes[0]? = some ⟨[("x", .integer 7)], none⟩ ∧
      ∃ later, after.scopes[1]? = some later ∧ later.outer = some 0 ∧
        Dictionary.find? "y" later.bindings = some (.integer 1)) ∧
    ∃ after,
      (Object.apply 1 (.function ⟨0, ["x"], [.bind "y" (.ident "x"), .return (.ident "y")], 0⟩)
        [.integer 5] (State.empty.openScope none [("y", .integer 7)])).state? = some after ∧
      after.scopes[0]? = some ⟨[("y", .integer 7)], none⟩ := by
  constructor
  · refine ⟨?after, ?finished, ?rest⟩
    case rest =>
      rcases State.isolated_of_evaluation 1 _ ?after with ⟨-, -, blocks, -⟩
      have isolated := blocks 1 _ ?finished
      rcases isolated.own _ rfl with ⟨later, there, grows⟩
      refine ⟨isolated.others 0 (by decide) (by decide), later, there, grows.outer, ?_⟩
      exact grows.others "y" (by decide)
    case finished => rfl
  · refine ⟨?next, ?ended, ?same⟩
    case same =>
      rcases State.isolated_of_evaluation 1 _ ?next with ⟨-, -, -, calls⟩
      exact calls _ _ ?ended 0 (by decide)
    case ended => rfl

end Monkey
