import Mathlib.Logic.Relation
import Monkey.Proofs.State.WellFormed

/-!
# Chains of scopes

From every scope a chain of scopes leads outwards. A name has the value that the
first scope on the chain binds to it, and looking it up is no more than going along
the chain. Binding a name in a scope is seen from exactly those scopes on whose
chain that scope is then the first to bind the name.
-/

namespace Monkey.State

variable {state : State} {id scope target outer : ScopeId} {scopes : List ScopeId}
  {name other : String} {value : Object}

/-! ## Lookup along a chain -/

/-- The object that a scope itself binds to a name. -/
def own? (state : State) (name : String) (id : ScopeId) : Option Object :=
  state.scopes[id]?.bind fun found => Dictionary.find? name found.bindings

/-- Whether a scope itself binds a name. -/
def binds (state : State) (name : String) (id : ScopeId) : Bool :=
  (state.own? name id).isSome

/-- The scope around a scope. -/
def outer? (state : State) (id : ScopeId) : Option ScopeId :=
  state.scopes[id]?.bind Scope.outer

/-- The scopes from a scope outwards, up to one that lies in no other. -/
inductive Chain (state : State) : ScopeId → List ScopeId → Prop
  | last {id : ScopeId} : id < state.scopes.size → state.outer? id = none → Chain state id [id]
  | more {id outer : ScopeId} {rest : List ScopeId} : state.outer? id = some outer →
      Chain state outer rest → Chain state id (id :: rest)

/-- The second scope is the first on the chain of the other that binds the name. -/
def Nearest (state : State) (name : String) (scope target : ScopeId) : Prop :=
  ∃ scopes, state.Chain scope scopes ∧ scopes.find? (state.binds name) = some target

/-- A scope lies directly in another. -/
def LiesIn (state : State) (id outer : ScopeId) : Prop :=
  state.outer? id = some outer

theorem findWithin?_succ (name : String) (count : Nat) (id : ScopeId) :
    state.findWithin? name (count + 1) id =
      (state.own? name id).or ((state.outer? id).bind (state.findWithin? name count)) := by
  simp only [findWithin?, own?, outer?]
  cases state.scopes[id]? with
  | none => rfl
  | some found =>
    simp only [Option.bind_some]
    cases Dictionary.find? name found.bindings with
    | some value => rfl
    | none => cases found.outer <;> rfl

theorem lt_of_outer?_eq_some (lies : state.outer? id = some outer) : id < state.scopes.size := by
  rcases Option.bind_eq_some_iff.mp lies with ⟨found, there, -⟩
  exact (Array.getElem?_eq_some_iff.mp there).1

theorem WellFormed.outer_lt (wellFormed : state.WellFormed) (lies : state.outer? id = some outer) :
    outer < id := by
  rcases Option.bind_eq_some_iff.mp lies with ⟨found, there, around⟩
  exact wellFormed.older there outer around

/-- Going outwards never comes back. -/
theorem WellFormed.acyclic (wellFormed : state.WellFormed) (id : ScopeId) :
    ¬ Relation.TransGen state.LiesIn id id := by
  have outwards {id outer : ScopeId} (path : Relation.TransGen state.LiesIn id outer) :
      outer < id := by
    induction path with
    | single lies => exact wellFormed.outer_lt lies
    | tail _ lies inductionHypothesis =>
      exact Nat.lt_trans (wellFormed.outer_lt lies) inductionHypothesis
  exact fun cycle => Nat.lt_irrefl id (outwards cycle)

/-- Every scope has a chain. -/
theorem WellFormed.exists_chain (wellFormed : state.WellFormed) (lt : id < state.scopes.size) :
    ∃ scopes, state.Chain id scopes := by
  induction id using Nat.strongRecOn with
  | ind id inductionHypothesis =>
    cases lies : state.outer? id with
    | none => exact ⟨_, .last lt lies⟩
    | some outer =>
      have older := wellFormed.outer_lt lies
      rcases inductionHypothesis outer older (Nat.lt_trans older lt) with ⟨rest, chain⟩
      exact ⟨_, .more lies chain⟩

theorem Chain.unique {others : List ScopeId} (chain : state.Chain id scopes)
    (twin : state.Chain id others) : scopes = others := by
  induction chain generalizing others with
  | last _ ends =>
    cases twin with
    | last => rfl
    | more lies => rw [ends] at lies; contradiction
  | more lies _ inductionHypothesis =>
    cases twin with
    | last _ ends => rw [lies] at ends; contradiction
    | more same rest =>
      rw [lies] at same
      cases same
      rw [inductionHypothesis rest]

theorem Chain.findWithin?_eq (wellFormed : state.WellFormed) (chain : state.Chain id scopes)
    (name : String) {count : Nat} (lt : id < count) :
    state.findWithin? name count id = scopes.findSome? (state.own? name) := by
  induction chain generalizing count with
  | @last id _ ends =>
    obtain ⟨count, rfl⟩ := Nat.exists_eq_add_one_of_ne_zero (Nat.ne_zero_of_lt lt)
    rw [findWithin?_succ, ends, List.findSome?_cons]
    cases state.own? name id <;> rfl
  | @more id outer rest lies chain inductionHypothesis =>
    obtain ⟨count, rfl⟩ := Nat.exists_eq_add_one_of_ne_zero (Nat.ne_zero_of_lt lt)
    have older := wellFormed.outer_lt lies
    rw [findWithin?_succ, lies, Option.bind_some,
      inductionHypothesis (Nat.lt_of_lt_of_le older (Nat.le_of_lt_succ lt)), List.findSome?_cons]
    cases state.own? name id <;> rfl

/-- A name has the value that the first scope on the chain binds to it. -/
theorem Chain.find?_eq (wellFormed : state.WellFormed) (chain : state.Chain id scopes)
    (name : String) : state.find? id name = scopes.findSome? (state.own? name) :=
  chain.findWithin?_eq wellFormed name (Nat.lt_succ_self id)

/-! ## Binding -/

section Binding

variable (state target name value)

theorem own?_bind_self (lt : target < state.scopes.size) :
    (state.bind target name value).own? name target = some value := by
  rw [own?, getElem?_bind_self, Array.getElem?_eq_getElem lt]
  exact Dictionary.find?_insert_self name value _

theorem own?_bind_of_ne (ne : ¬ (other = name ∧ id = target)) :
    (state.bind target name value).own? other id = state.own? other id := by
  by_cases here : target = id
  · subst here
    have differs : name ≠ other := fun same => ne ⟨same.symm, rfl⟩
    rw [own?, own?, getElem?_bind_self]
    cases state.scopes[target]? with
    | none => rfl
    | some found => exact Dictionary.find?_insert_of_ne differs value found.bindings
  · rw [own?, own?, getElem?_bind_of_ne _ _ _ here]

theorem outer?_bind (id : ScopeId) :
    (state.bind target name value).outer? id = state.outer? id := by
  by_cases here : target = id
  · subst here
    rw [outer?, outer?, getElem?_bind_self]
    cases state.scopes[target]? <;> rfl
  · rw [outer?, outer?, getElem?_bind_of_ne _ _ _ here]

theorem chain_bind_iff :
    (state.bind target name value).Chain id scopes ↔ state.Chain id scopes := by
  constructor
  · intro chain
    induction chain with
    | last lt ends =>
      rw [size_bind] at lt
      rw [outer?_bind] at ends
      exact .last lt ends
    | more lies _ inductionHypothesis =>
      rw [outer?_bind] at lies
      exact .more lies inductionHypothesis
  · intro chain
    induction chain with
    | last lt ends => exact .last ((size_bind ..).symm ▸ lt) ((outer?_bind ..).trans ends)
    | more lies _ inductionHypothesis =>
      exact .more ((outer?_bind ..).trans lies) inductionHypothesis

end Binding

/-- Along any scopes the first value of the name is the new one if the scope in
which it was bound is the first to bind it, and else the same as before. -/
theorem findSome?_own?_bind (lt : target < state.scopes.size) (scopes : List ScopeId) :
    scopes.findSome? ((state.bind target name value).own? name) =
      if scopes.find? ((state.bind target name value).binds name) = some target then some value
      else scopes.findSome? (state.own? name) := by
  induction scopes with
  | nil => rfl
  | cons id rest inductionHypothesis =>
    by_cases here : id = target
    · subst here
      have bound := own?_bind_self state id name value lt
      simp [binds, bound]
    · have same : (state.bind target name value).own? name id = state.own? name id :=
        own?_bind_of_ne state target name value fun both => here both.2
      cases own : state.own? name id with
      | none => simp [binds, same, own, inductionHypothesis]
      | some found => simp [binds, same, own, here]

/-- A binding is seen along a chain if no scope before its own binds the name. -/
theorem Chain.nearest_bind {inner outwards : List ScopeId}
    (chain : state.Chain scope (inner ++ target :: outwards)) (lt : target < state.scopes.size)
    (value : Object) (unbound : ∀ id ∈ inner, state.own? name id = none) :
    (state.bind target name value).Nearest name scope target := by
  refine ⟨_, (chain_bind_iff state target name value).mpr chain, ?_⟩
  rw [List.find?_append, List.find?_cons_of_pos]
  · cases found : inner.find? ((state.bind target name value).binds name) with
    | none => rfl
    | some id =>
      -- Whatever binds the name now and did not before is the scope of the binding.
      have bound := List.find?_some found
      have member := List.mem_of_find?_eq_some found
      by_cases here : id = target
      · rw [here]
        rfl
      · rw [binds, own?_bind_of_ne state target name value fun both => here both.2,
          unbound id member] at bound
        contradiction
  · rw [binds, own?_bind_self state target name value lt]
    rfl

theorem Chain.mem_of_nearest_bind (chain : state.Chain scope scopes)
    (nearest : (state.bind target name value).Nearest name scope target) : target ∈ scopes := by
  rcases nearest with ⟨twin, along, found⟩
  have kept := (chain_bind_iff state target name value).mp along
  rw [chain.unique kept]
  exact List.mem_of_find?_eq_some found

/-- Who sees a binding: the scopes from which the scope of the binding is then the
nearest that binds the name. From all others, and for all other names, nothing
changes. -/
theorem WellFormed.find?_bind (wellFormed : state.WellFormed) (lt : target < state.scopes.size)
    (there : scope < state.scopes.size) (owns : state.Owns value) (name other : String) :
    (other = name ∧ (state.bind target name value).Nearest name scope target →
      (state.bind target name value).find? scope other = some value) ∧
    (¬ (other = name ∧ (state.bind target name value).Nearest name scope target) →
      (state.bind target name value).find? scope other = state.find? scope other) := by
  obtain ⟨scopes, chain⟩ := wellFormed.exists_chain there
  have kept := (chain_bind_iff state target name value).mpr chain
  rw [chain.find?_eq wellFormed, kept.find?_eq (wellFormed.bind target name owns)]
  by_cases same : other = name
  · subst same
    have nearest_iff : (state.bind target other value).Nearest other scope target ↔
        scopes.find? ((state.bind target other value).binds other) = some target := by
      constructor
      · rintro ⟨twin, along, nearest⟩
        rwa [kept.unique along]
      · exact fun nearest => ⟨scopes, kept, nearest⟩
    rw [findSome?_own?_bind lt, nearest_iff]
    constructor
    · exact fun nearest => if_pos nearest.2
    · exact fun hidden => if_neg fun nearest => hidden ⟨rfl, nearest⟩
  · refine ⟨fun nearest => absurd nearest.1 same, fun _ => ?_⟩
    congr 1
    funext id
    exact own?_bind_of_ne state target name value fun both => same both.1

end Monkey.State
