import Monkey.Proofs.Evaluation.Ownership
import Monkey.Proofs.State.Chain

/-!
# Operations on scopes

A host opens scopes and binds names in them, and has programs run in them that open
and bind on their own. Whatever it does, and in whatever order: the scopes form a
forest that only grows, closures refer to scopes of the forest, and a name has the
value that the first scope on a chain binds to it.
-/

namespace Monkey

/-- What a host does with scopes. -/
inductive Operation
  /-- Opens a scope that lies in no other. -/
  | new
  /-- Opens a scope in another. -/
  | enclosed (outer : ScopeId)
  /-- Opens a scope that lies in no other, with bindings. -/
  | ofList (bindings : List (String × Object))
  | set (scope : ScopeId) (name : String) (value : Object)
  | run (depth : Nat) (scope : ScopeId) (program : Program)

namespace Operation

/-- The operation refers to scopes that are there, and so do the closures in its
objects. -/
def Legal (state : State) : Operation → Prop
  | .new => True
  | .enclosed outer => outer < state.scopes.size
  | .ofList bindings => ∀ binding ∈ bindings, state.Owns binding.2
  | .set scope _ value => scope < state.scopes.size ∧ state.Owns value
  | .run _ scope _ => scope < state.scopes.size

/-- The state behind an operation. There is none behind a program that does not
finish. -/
def perform (state : State) : Operation → Option State
  | .new => some (state.openScope none [])
  | .enclosed outer => some (state.openScope (some outer) [])
  | .ofList bindings => some (state.openScope none (Dictionary.ofList bindings))
  | .set scope name value => some (state.bind scope name value)
  | .run depth scope program => (program.eval depth scope state).map Prod.snd

end Operation

/-- Legal operations, one behind the other, lead from one state to another. -/
inductive State.Performs : State → List Operation → State → Prop
  | nil (state : State) : Performs state [] state
  | cons {before middle after : State} {operation : Operation} {rest : List Operation} :
      operation.Legal before → operation.perform before = some middle →
        Performs middle rest after → Performs before (operation :: rest) after

namespace State

/-- The second state has all scopes of the first, each still in the same scope. -/
structure Outgrows (state later : State) : Prop where
  size : state.scopes.size ≤ later.scopes.size
  outer : ∀ id < state.scopes.size, later.outer? id = state.outer? id

namespace Outgrows

variable {state middle later : State}

theorem refl (state : State) : state.Outgrows state :=
  ⟨Nat.le_refl _, fun _ _ => rfl⟩

theorem trans (first : state.Outgrows middle) (second : middle.Outgrows later) :
    state.Outgrows later where
  size := Nat.le_trans first.size second.size
  outer id lt :=
    (second.outer id (Nat.lt_of_lt_of_le lt first.size)).trans (first.outer id lt)

theorem openScope (state : State) (outer : Option ScopeId)
    (bindings : Dictionary String Object) :
    state.Outgrows (state.openScope outer bindings) where
  size := Nat.le_of_lt (Nat.lt_of_lt_of_eq (Nat.lt_succ_self _) (size_openScope ..).symm)
  outer id lt := by rw [outer?, outer?, getElem?_openScope_of_ne _ _ _ (Nat.ne_of_lt lt)]

theorem bind (state : State) (scope : ScopeId) (name : String) (value : Object) :
    state.Outgrows (state.bind scope name value) where
  size := Nat.le_of_eq (size_bind ..).symm
  outer id _ := outer?_bind state scope name value id

theorem of_isolated {scope : ScopeId} {names : List String}
    (isolated : state.Isolated scope names later) : state.Outgrows later where
  size := isolated.size
  outer id lt := by
    by_cases here : id = scope
    · subst here
      have there := Array.getElem?_eq_getElem lt
      rcases isolated.own _ there with ⟨found, behind, grows⟩
      rw [outer?, outer?, behind, there]
      exact grows.outer
    · rw [outer?, outer?, isolated.others id lt here]

theorem eval {depth : Nat} {scope : ScopeId} {program : Program} {value : Object}
    (finished : program.eval depth scope state = some (value, later)) :
    state.Outgrows later := by
  have answers := Logic.isolated.answers_apply depth
  have ended : (Block.eval (Object.apply depth) scope program state).state? = some later := by
    rcases Program.cases_of_eval finished with ⟨_, ran, _⟩ | ran | ⟨_, ran, _⟩ <;> rw [ran] <;> rfl
  exact of_isolated ((Logic.block answers scope trivial program).isolated ended)

end Outgrows

/-! ## One operation, and all of them -/

variable {before after : State}

/-- An operation keeps a state well-formed, and its scopes where they are. -/
theorem WellFormed.perform {operation : Operation} (wellFormed : before.WellFormed)
    (legal : operation.Legal before) (performed : operation.perform before = some after) :
    after.WellFormed ∧ before.Outgrows after := by
  cases operation with
  | new =>
    cases performed
    exact ⟨wellFormed.openScope (by simp) (by simp), .openScope ..⟩
  | enclosed outer =>
    cases performed
    refine ⟨wellFormed.openScope ?_ (by simp), .openScope ..⟩
    rintro _ ⟨⟩
    exact legal
  | ofList bindings =>
    cases performed
    refine ⟨wellFormed.openScope (by simp) ?_, .openScope ..⟩
    exact fun binding member => legal binding (Dictionary.mem_of_mem_ofList member)
  | set scope name value =>
    cases performed
    exact ⟨wellFormed.bind scope name legal.2, .bind ..⟩
  | run depth scope program =>
    rcases Option.map_eq_some_iff.mp performed with ⟨⟨value, _⟩, finished, rfl⟩
    exact ⟨(wellFormed.eval legal finished).1, .eval finished⟩

theorem Performs.wellFormed {operations : List Operation}
    (performed : before.Performs operations after) (wellFormed : before.WellFormed) :
    after.WellFormed ∧ before.Outgrows after := by
  induction performed with
  | nil state => exact ⟨wellFormed, .refl state⟩
  | cons legal ran _ inductionHypothesis =>
    have step := wellFormed.perform legal ran
    have rest := inductionHypothesis step.1
    exact ⟨rest.1, step.2.trans rest.2⟩

/-! ## Sessions of a host -/

/-- Scopes lie in each other without a cycle, closures refer to scopes that are
there, and a lookup is a walk along a chain, which ends. -/
structure Forest (state : State) : Prop where
  outer_lt : ∀ id outer, state.outer? id = some outer → outer < state.scopes.size
  acyclic : ∀ id, ¬ Relation.TransGen state.LiesIn id id
  captured : ∀ (id : ScopeId) (found : Scope), state.scopes[id]? = some found →
    ∀ binding ∈ found.bindings, state.Owns binding.2
  lookup : ∀ id < state.scopes.size, ∃ scopes, state.Chain id scopes ∧
    ∀ name, state.find? id name = scopes.findSome? (state.own? name)

theorem WellFormed.forest {state : State} (wellFormed : state.WellFormed) : state.Forest where
  outer_lt _ _ lies := Nat.lt_trans (wellFormed.outer_lt lies) (lt_of_outer?_eq_some lies)
  acyclic := wellFormed.acyclic
  captured _ _ there := wellFormed.owned there
  lookup _ lt := by
    rcases wellFormed.exists_chain lt with ⟨scopes, chain⟩
    exact ⟨scopes, chain, chain.find?_eq wellFormed⟩

/-- The values of the names in a scope that was opened with bindings. -/
theorem find?_openScope_ofList (state : State) (bindings : List (String × Object))
    (name : String) :
    (state.openScope none (Dictionary.ofList bindings)).find? state.scopes.size name =
      Dictionary.find? name (Dictionary.ofList bindings) := by
  simp only [find?, findWithin?, getElem?_openScope_self]
  cases Dictionary.find? name (Dictionary.ofList bindings) <;> rfl

/-- Whatever a host does from the beginning, also between the runs of programs: the
scopes are a forest, in which no scope ever moves, and the values of programs belong
to it. A scope opened with bindings gives each name the last of its values. A
binding is seen from the scopes from which its scope is the nearest that binds the
name, and changes nothing else: it is seen from all scopes inside its own in which
the name is not bound again, and never from outside. -/
theorem forest_of_operations {operations : List Operation} {state : State}
    (performed : State.empty.Performs operations state) :
    state.Forest ∧
    (∀ more later, state.Performs more later → state.Outgrows later) ∧
    (∀ depth scope program value after, scope < state.scopes.size →
      Program.eval depth scope program state = some (value, after) → after.Owns value) ∧
    (∀ bindings after, (Operation.ofList bindings).perform state = some after →
      (∀ front name value back, bindings = front ++ (name, value) :: back →
        name ∉ back.map Prod.fst → after.find? state.scopes.size name = some value) ∧
      ∀ name, name ∉ bindings.map Prod.fst → after.find? state.scopes.size name = none) ∧
    (∀ target name value after, (Operation.set target name value).Legal state →
      (Operation.set target name value).perform state = some after →
      ∀ scope < state.scopes.size,
        (∀ other,
          (other = name ∧ after.Nearest name scope target →
            after.find? scope other = some value) ∧
          (¬ (other = name ∧ after.Nearest name scope target) →
            after.find? scope other = state.find? scope other)) ∧
        (∀ inner outer, state.Chain scope (inner ++ target :: outer) →
          (∀ id ∈ inner, state.own? name id = none) → after.find? scope name = some value) ∧
        ∀ scopes, state.Chain scope scopes → target ∉ scopes →
          ∀ other, after.find? scope other = state.find? scope other) := by
  have wellFormed := (performed.wellFormed .empty).1
  refine ⟨wellFormed.forest, ?_, ?_, ?_, ?_⟩
  · exact fun more later further => (further.wellFormed wellFormed).2
  · exact fun depth scope program value after there finished =>
      (wellFormed.eval there finished).2
  · rintro bindings after ⟨⟩
    constructor
    · rintro front name value back rfl last
      rw [find?_openScope_ofList]
      exact Dictionary.find?_ofList_of_last last front value
    · intro name absent
      rw [find?_openScope_ofList]
      exact Dictionary.find?_ofList_of_notMem absent
  · rintro target name value after ⟨lt, owns⟩ ⟨⟩ scope there
    have law := wellFormed.find?_bind lt there owns name
    refine ⟨law, ?_, ?_⟩
    · exact fun inner outer chain unbound =>
        (law name).1 ⟨rfl, chain.nearest_bind lt value unbound⟩
    · intro scopes chain outside other
      exact (law other).2 fun seen => outside (chain.mem_of_nearest_bind seen.2)

end State

/-- A function that reads a name which is not bound in it. -/
def Closure.reading (identity : Nat) (scope : ScopeId) : Closure :=
  ⟨identity, [], [.expr (.ident "y")], scope⟩

/-- A function that makes one. -/
def Closure.making : Closure :=
  ⟨0, [], [.expr (.function [] (Closure.reading 1 2).body)], 1⟩

/-- A scope with two values for one name, a scope in it, and a program that calls a
function there, which leaves a closure behind. -/
def Operation.capturing : List Operation :=
  [.ofList [("x", .integer 1), ("x", .integer 2)], .enclosed 0, .set 1 "z" (.boolean true),
    .run 1 1 [.bind "make" (.function [] Closure.making.body),
      .bind "made" (.call (.ident "make") [])]]

/-- The scope of the call lies in the scope of the function. -/
def State.captured : State :=
  ⟨#[⟨[("x", .integer 2)], none⟩,
    ⟨[("z", .boolean true), ("make", .function .making), ("made", .function (.reading 1 2))],
      some 0⟩, ⟨[], some 1⟩], 2, ""⟩

/-- A name that is bound in the outermost scope later is seen from the scope that the
closure captured. Bound in that scope, it is not seen from outside. -/
theorem State.forest_of_operations_of_capturing :
    State.empty.Performs Operation.capturing State.captured ∧ State.captured.Forest ∧
      (State.captured.bind 0 "y" (.integer 7)).find? 2 "y" = some (.integer 7) ∧
      (State.captured.bind 2 "x" (.integer 7)).find? 1 "x" = State.captured.find? 1 "x" := by
  have bindings : ∀ binding ∈ [("x", Object.integer 1), ("x", .integer 2)],
      State.empty.Owns binding.2 := by
    intro binding member
    simp only [List.mem_cons, List.not_mem_nil, or_false] at member
    rcases member with rfl | rfl <;> exact .integer _
  have performed : State.empty.Performs Operation.capturing State.captured :=
    .cons bindings rfl (.cons Nat.zero_lt_one rfl
      (.cons ⟨Nat.one_lt_two, .boolean true⟩ rfl (.cons Nat.one_lt_two rfl (.nil _))))
  have outside : State.captured.Chain 1 [1, 0] := .more rfl (.last (by decide) rfl)
  have inside : State.captured.Chain 2 ([2, 1] ++ 0 :: []) := .more rfl outside
  have unbound : ∀ id ∈ [2, 1], State.captured.own? "y" id = none := by
    simp only [List.forall_mem_cons]
    exact ⟨rfl, rfl, List.forall_mem_nil _⟩
  rcases State.forest_of_operations performed with ⟨forest, -, -, -, set⟩
  have outer := set 0 "y" (.integer 7) _ ⟨by decide, .integer 7⟩ rfl 2 (by decide)
  have inner := set 2 "x" (.integer 7) _ ⟨by decide, .integer 7⟩ rfl 1 (by decide)
  exact ⟨performed, forest, outer.2.1 [2, 1] [] inside unbound,
    inner.2.2 [1, 0] outside (by decide) "x"⟩

end Monkey
