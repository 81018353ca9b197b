import Monkey.Proofs.Evaluation.Correspondence
import Monkey.Proofs.State.WellFormed

/-!
# Names that are not read

A name that neither a program nor any stored function reads may be bound to whatever
one likes. Two states that differ in nothing but what is bound to that name stay so
while the program runs in both of them, and it ends with the same value and the same
output.
-/

namespace Monkey

/-! ## States that agree -/

/-- The scopes lie in the same scope and bind all names but one to the same
objects. -/
structure Scope.AgreesBut (name : String) (found other : Scope) : Prop where
  outer : other.outer = found.outer
  bindings : ∀ seen, seen ≠ name →
    Dictionary.find? seen other.bindings = Dictionary.find? seen found.bindings

/-- The states have the same scopes, but for what is bound to the name, and wrote the
same. -/
structure State.AgreesBut (name : String) (state other : State) : Prop where
  size : other.scopes.size = state.scopes.size
  closures : other.closures = state.closures
  output : other.output = state.output
  scopes : ∀ {id : ScopeId} {found : Scope}, state.scopes[id]? = some found →
    ∃ twin, other.scopes[id]? = some twin ∧ found.AgreesBut name twin

theorem Scope.AgreesBut.refl (name : String) (scope : Scope) : scope.AgreesBut name scope :=
  ⟨rfl, fun _ _ => rfl⟩

namespace State.AgreesBut

variable {name seen : String} {state other : State} {value : Object}

/-- What is bound to the name does not matter. -/
theorem bind_self (name : String) (value : Object) (scope : ScopeId) (state : State) :
    state.AgreesBut name (state.bind scope name value) where
  size := state.size_bind name value scope
  closures := rfl
  output := rfl
  scopes {id found} there := by
    by_cases here : scope = id
    · subst here
      rw [getElem?_bind_self, there]
      refine ⟨_, rfl, rfl, ?_⟩
      exact fun seen ne => Dictionary.find?_insert_of_ne (Ne.symm ne) value found.bindings
    · exact ⟨found, (getElem?_bind_of_ne _ _ _ here).trans there, .refl name found⟩

theorem findWithin? (agrees : state.AgreesBut name other) (ne : seen ≠ name) (count : Nat)
    (id : ScopeId) : other.findWithin? seen count id = state.findWithin? seen count id := by
  induction count generalizing id with
  | zero => rfl
  | succ count inductionHypothesis =>
    simp only [State.findWithin?]
    cases there : state.scopes[id]? with
    | none =>
      have outside := Array.getElem?_eq_none_iff.mp there
      rw [Array.getElem?_eq_none_iff.mpr (agrees.size ▸ outside)]
    | some found =>
      rcases agrees.scopes there with ⟨twin, behind, same⟩
      simp only [behind, same.outer, same.bindings seen ne, inductionHypothesis]

theorem bind (agrees : state.AgreesBut name other) (scope : ScopeId) (seen : String)
    (value : Object) : (state.bind scope seen value).AgreesBut name (other.bind scope seen value)
    where
  size := by rw [size_bind, size_bind, agrees.size]
  closures := agrees.closures
  output := agrees.output
  scopes {id found} there := by
    by_cases here : scope = id
    · subst here
      rw [getElem?_bind_self] at there ⊢
      rcases Option.map_eq_some_iff.mp there with ⟨old, before, rfl⟩
      rcases agrees.scopes before with ⟨twin, behind, same⟩
      rw [behind]
      refine ⟨_, rfl, same.outer, fun other ne => ?_⟩
      by_cases bound : seen = other
      · rw [bound, Dictionary.find?_insert_self, Dictionary.find?_insert_self]
      · rw [Dictionary.find?_insert_of_ne bound, Dictionary.find?_insert_of_ne bound,
          same.bindings other ne]
    · rw [getElem?_bind_of_ne _ _ _ here] at there ⊢
      exact agrees.scopes there

theorem openScope (agrees : state.AgreesBut name other) (outer : Option ScopeId)
    (bindings : Dictionary String Object) :
    (state.openScope outer bindings).AgreesBut name (other.openScope outer bindings) where
  size := by rw [size_openScope, size_openScope, agrees.size]
  closures := agrees.closures
  output := agrees.output
  scopes {id found} there := by
    by_cases new : id = state.scopes.size
    · rw [new, getElem?_openScope_self] at there
      cases there
      exact ⟨_, by rw [new, ← agrees.size, getElem?_openScope_self], .refl name _⟩
    · rw [getElem?_openScope_of_ne _ _ _ new] at there
      rw [getElem?_openScope_of_ne _ _ _ (agrees.size ▸ new)]
      exact agrees.scopes there

end State.AgreesBut

/-! ## Runs in them -/

/-- No function in the object reads the name. -/
def Object.Avoids (name : String) (object : Object) : Prop :=
  object.EveryClosure fun closure => name ∉ Block.identifiers closure.body

/-- A closure that does not read the name, and the same closure. -/
structure Closure.Blind (name : String) (closure other : Closure) : Prop where
  same : other = closure
  avoids : name ∉ Block.identifiers closure.body

namespace Object.Avoids

variable {name : String} {object other : Object}

theorem alike (avoids : object.Avoids name) : object.Alike (Closure.Blind name) object :=
  EveryClosure.alike (fun _ unread => ⟨rfl, unread⟩) avoids

theorem of_alike (alike : object.Alike (Closure.Blind name) other) : object.Avoids name :=
  alike.everyClosure fun _ _ blind => blind.avoids

theorem eq_of_alike (alike : object.Alike (Closure.Blind name) other) : other = object :=
  alike.eq fun _ _ blind => blind.same

end Object.Avoids

/-- Runs of texts that do not read the name, in states that agree on all others. -/
def Correspondence.unread (name : String) : Correspondence where
  Readable seen := seen ≠ name
  Closures _ := Closure.Blind name
  Scopes _ scope twin := twin = scope
  States state other := state.AgreesBut name other ∧ state.EveryObject (Object.Avoids name)
  text _ _ blind := by rw [blind.same]; exact ⟨rfl, rfl⟩
  readable blind seen member same := blind.avoids (same ▸ member)
  captured blind := by rw [blind.same]
  closures_mono _ blind := blind
  scopes_mono _ same := same
  find ne states same := by
    rcases states with ⟨agrees, avoids⟩
    subst same
    rw [State.find?, State.find?, agrees.findWithin? ne]
    cases found : State.findWithin? _ _ _ _ with
    | none => exact .none
    | some value => exact .some (avoids.findWithin? found).alike
  bind name states same alike := by
    cases Object.Avoids.eq_of_alike alike
    subst same
    exact ⟨states.1.bind _ name _, states.2.bind (.of_alike alike) _ name⟩
  write output states := by
    refine ⟨{ states.1 with output := ?_ }, states.2⟩
    rw [State.write, State.write, states.1.output]
  count states := by
    refine ⟨{ states.1 with closures := ?_ }, states.2⟩
    rw [State.countClosure, State.countClosure, states.1.closures]
  made _ _ reads states same := by
    subst same
    exact ⟨by rw [states.1.closures], fun member => reads _ member rfl⟩
  openScope states same alike := by
    cases alike.eq fun _ _ => Object.Avoids.eq_of_alike
    subst same
    refine ⟨states.1.openScope _ _, states.2.openScope _ fun binding member => ?_⟩
    rcases alike.exists_of_mem member with ⟨_, alike⟩
    exact .of_alike alike
  opened states := states.1.size

/-- A binding of a name that is read neither by the program nor by any function that
is stored in the state does not matter: with and without it the program finishes or
does not, and if it does, then with the same value and the same output, and in states
that agree on all other names. -/
theorem Program.eval_bind_of_unread {name : String} {program : Program} {state : State}
    (unread : name ∉ Block.identifiers program)
    (avoids : state.EveryObject (Object.Avoids name)) (depth : Nat) (scope place : ScopeId)
    (value : Object) :
    (program.eval depth scope state = none ∧
      program.eval depth scope (state.bind place name value) = none) ∨
    ∃ result after behind, program.eval depth scope state = some (result, after) ∧
      program.eval depth scope (state.bind place name value) = some (result, behind) ∧
      after.AgreesBut name behind := by
  have reads : (Correspondence.unread name).Reads (Block.identifiers program) :=
    fun seen member same => unread (same ▸ member)
  have same : (Correspondence.unread name).Scopes state.scopes.size scope scope := rfl
  have ends := (Correspondence.unread name).eval_program depth reads same
    ⟨.bind_self name value place state, avoids⟩
  generalize program.eval depth scope state = outcome at ends ⊢
  generalize program.eval depth scope (state.bind place name value) = twin at ends ⊢
  cases ends with
  | none => exact .inl ⟨rfl, rfl⟩
  | @some ended behind related =>
    rcases ended with ⟨result, after⟩
    rcases behind with ⟨_, behind⟩
    rcases related with ⟨states, alike⟩
    cases Object.Avoids.eq_of_alike alike
    exact .inr ⟨result, after, behind, rfl, rfl, states.1⟩

/-- A scope that binds a name which no function reads, and a function that applies
another twice. -/
def State.sparing : State :=
  State.empty.openScope none [("spare", .null), ("twice", .function
    ⟨0, ["f"], [.expr (.call (.ident "f") [.call (.ident "f") [.int 3]])], 0⟩)]

/-- A program that binds the name on its own and writes what a function returns. -/
def Program.sparing : Program :=
  [.bind "spare" (.int 1), .expr (.call (.ident "puts") [.call (.ident "twice")
    [.function ["n"] [.return (.binary (.ident "n") .multiply (.ident "n"))]]])]

/-- The name is bound to a function, in place of what it was bound to. -/
theorem Program.eval_bind_of_unread_of_sparing :
    "spare" ∉ Block.identifiers Program.sparing ∧
    State.sparing.EveryObject (Object.Avoids "spare") ∧
    ∃ result after behind, Program.sparing.eval 2 0 State.sparing = some (result, after) ∧
      Program.sparing.eval 2 0
          (State.sparing.bind 0 "spare" (.function ⟨1, [], [.expr (.ident "twice")], 0⟩)) =
        some (result, behind) ∧
      after.AgreesBut "spare" behind := by
  have unread : "spare" ∉ Block.identifiers Program.sparing := by decide
  have avoids : State.sparing.EveryObject (Object.Avoids "spare") := by
    have none : State.empty.EveryObject (Object.Avoids "spare") := by
      intro id found there
      simp [State.empty] at there
    refine none.openScope Option.none ?_
    simp only [List.forall_mem_cons]
    exact ⟨.null, .function (by decide), List.forall_mem_nil _⟩
  refine ⟨unread, avoids, ?_⟩
  rcases Program.eval_bind_of_unread unread avoids 2 0 0
    (.function ⟨1, [], [.expr (.ident "twice")], 0⟩) with ⟨exhausted, -⟩ | finished
  · have finishes : (Program.sparing.eval 2 0 State.sparing).isSome := rfl
    rw [exhausted] at finishes
    contradiction
  · exact finished

end Monkey
