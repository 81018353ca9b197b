import Monkey.Proofs.State.Operation

/-!
# Resolution of names

What a name means in a scope is what the nearest scope that binds it binds it to, or
else the builtin of that name. Why it means that is a walk outwards along scopes that
are there. As long as these scopes stay as they are, it means the same, whatever
scopes are opened beside them.
-/

namespace Monkey.State

variable {state before after : State} {id scope outer : ScopeId} {name : String}
  {names : List String} {bindings : Dictionary String Object} {value : Object}
  {result : Option Object}

/-! ## Walks outwards -/

/-- The walk outwards from a scope ends with what the name is bound to, or without a
binding. It only ever comes to older scopes. -/
inductive Resolves (state : State) (name : String) : ScopeId → Option Object → Prop
  | own {id : ScopeId} {value : Object} : state.own? name id = some value →
      Resolves state name id (some value)
  | outer {id outer : ScopeId} {result : Option Object} : state.own? name id = none →
      state.outer? id = some outer → outer < id → Resolves state name outer result →
        Resolves state name id result
  | missing {id : ScopeId} : id < state.scopes.size → state.own? name id = none →
      state.outer? id = none → Resolves state name id none

namespace Resolves

theorem lt (resolves : state.Resolves name id result) : id < state.scopes.size := by
  cases resolves with
  | own found =>
    obtain ⟨scope, there, -⟩ := Option.bind_eq_some_iff.mp found
    exact (Array.getElem?_eq_some_iff.mp there).1
  | outer _ lies => exact lt_of_outer?_eq_some lies
  | missing lt => exact lt

theorem findWithin?_eq (resolves : state.Resolves name id result) {count : Nat}
    (lt : id < count) : state.findWithin? name count id = result := by
  induction resolves generalizing count with
  | own found =>
    obtain ⟨count, rfl⟩ := Nat.exists_eq_add_one_of_ne_zero (Nat.ne_zero_of_lt lt)
    rw [findWithin?_succ, found]
    rfl
  | outer free lies older _ inductionHypothesis =>
    obtain ⟨count, rfl⟩ := Nat.exists_eq_add_one_of_ne_zero (Nat.ne_zero_of_lt lt)
    rw [findWithin?_succ, free, lies]
    exact inductionHypothesis (Nat.lt_of_lt_of_le older (Nat.le_of_lt_succ lt))
  | missing _ free ends =>
    obtain ⟨count, rfl⟩ := Nat.exists_eq_add_one_of_ne_zero (Nat.ne_zero_of_lt lt)
    rw [findWithin?_succ, free, ends]
    rfl

/-- A lookup is a walk outwards. -/
theorem find?_eq (resolves : state.Resolves name id result) : state.find? id name = result :=
  resolves.findWithin?_eq (Nat.lt_succ_self id)

end Resolves

/-- In a well-formed state every lookup is a walk outwards. -/
theorem WellFormed.resolves (wellFormed : state.WellFormed) (there : id < state.scopes.size)
    (name : String) : state.Resolves name id (state.find? id name) := by
  obtain ⟨scopes, chain⟩ := wellFormed.exists_chain there
  have walk : ∃ result, state.Resolves name id result := by
    clear there
    induction chain with
    | @last id lt ends =>
      cases own : state.own? name id with
      | some value => exact ⟨_, .own own⟩
      | none => exact ⟨_, .missing lt own ends⟩
    | @more id outer _ lies _ inductionHypothesis =>
      cases own : state.own? name id with
      | some value => exact ⟨_, .own own⟩
      | none =>
        obtain ⟨result, resolves⟩ := inductionHypothesis
        exact ⟨result, .outer own lies (wellFormed.outer_lt lies) resolves⟩
  obtain ⟨result, resolves⟩ := walk
  rwa [resolves.find?_eq]

/-! ## Changes that a walk does not see -/

theorem Isolated.own?_eq (isolated : before.Isolated scope names after) (foreign : name ∉ names)
    (lt : id < before.scopes.size) : after.own? name id = before.own? name id := by
  by_cases here : id = scope
  · subst here
    have there := Array.getElem?_eq_getElem lt
    obtain ⟨later, behind, grows⟩ := isolated.own _ there
    rw [own?, own?, behind, there]
    exact grows.others name foreign
  · rw [own?, own?, isolated.others id lt here]

/-- A name that is not bound anew is resolved as before. -/
theorem Resolves.isolated (resolves : before.Resolves name id result)
    (isolated : before.Isolated scope names after) (foreign : name ∉ names) :
    after.Resolves name id result := by
  have outgrows := Outgrows.of_isolated isolated
  induction resolves with
  | own found =>
    have lt := (Resolves.own found).lt
    exact .own ((isolated.own?_eq foreign lt).trans found)
  | outer free lies older _ inductionHypothesis =>
    have lt := lt_of_outer?_eq_some lies
    exact .outer ((isolated.own?_eq foreign lt).trans free) ((outgrows.outer _ lt).trans lies) older
      inductionHypothesis
  | missing lt free ends =>
    exact .missing (Nat.lt_of_lt_of_le lt isolated.size) ((isolated.own?_eq foreign lt).trans free)
      ((outgrows.outer _ lt).trans ends)

/-! ## Meanings -/

/-- The object is what the name means in the scope: what it is bound to, or else the
builtin of that name. -/
inductive Means (state : State) (scope : ScopeId) (name : String) : Object → Prop
  | bound {value : Object} : state.Resolves name scope (some value) → Means state scope name value
  | builtin {primitive : Builtin} : Builtin.ofName? name = some primitive →
      state.Resolves name scope none → Means state scope name (.builtin primitive)

namespace Means

theorem lt (means : state.Means scope name value) : scope < state.scopes.size := by
  cases means with
  | bound resolves => exact resolves.lt
  | builtin _ resolves => exact resolves.lt

/-- An identifier has what it means as its value. -/
theorem eval (means : state.Means scope name value) :
    evalIdentifier scope name state = .value value state := by
  cases means with
  | bound resolves => simp only [evalIdentifier, resolves.find?_eq]
  | builtin primitive resolves => simp only [evalIdentifier, resolves.find?_eq, primitive]

theorem isolated (means : before.Means id name value)
    (isolated : before.Isolated scope names after) (foreign : name ∉ names) :
    after.Means id name value := by
  cases means with
  | bound resolves => exact .bound (resolves.isolated isolated foreign)
  | builtin primitive resolves => exact .builtin primitive (resolves.isolated isolated foreign)

end Means

/-! ## Frames -/

/-- The scope binds these names and lies in the other one, which is older. -/
structure Frame (state : State) (id : ScopeId) (bindings : Dictionary String Object)
    (outer : ScopeId) : Prop where
  there : state.scopes[id]? = some ⟨bindings, some outer⟩
  older : outer < id

namespace Frame

/-- A scope that is opened is a frame. -/
theorem openScope (lt : outer < state.scopes.size) (bindings : Dictionary String Object) :
    (state.openScope (some outer) bindings).Frame state.scopes.size bindings outer :=
  ⟨getElem?_openScope_self .., lt⟩

/-- A binding is added to a frame. -/
theorem bind (frame : state.Frame id bindings outer) (name : String) (value : Object) :
    (state.bind id name value).Frame id (Dictionary.insert name value bindings) outer where
  there := by
    rw [getElem?_bind_self, frame.there]
    rfl
  older := frame.older

theorem own?_eq (frame : state.Frame id bindings outer) (name : String) :
    state.own? name id = Dictionary.find? name bindings := by
  rw [own?, frame.there]
  rfl

/-- A name that the frame binds means what it is bound to. -/
theorem means (frame : state.Frame id bindings outer)
    (found : Dictionary.find? name bindings = some value) : state.Means id name value :=
  .bound (.own ((frame.own?_eq name).trans found))

/-- Any other name means what it means around the frame. -/
theorem means_outer (frame : state.Frame id bindings outer)
    (free : Dictionary.find? name bindings = none) (means : state.Means outer name value) :
    state.Means id name value := by
  have unbound := (frame.own?_eq name).trans free
  have lies : state.outer? id = some outer := by
    rw [outer?, frame.there]
    rfl
  cases means with
  | bound resolves => exact .bound (.outer unbound lies frame.older resolves)
  | builtin primitive resolves =>
    exact .builtin primitive (.outer unbound lies frame.older resolves)

end Frame

end Monkey.State
