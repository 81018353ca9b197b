import Monkey.Object

/-!
# The state of a session

A state holds all scopes that were ever opened, the number of closures that
were made, and the text that was written. A scope binds names and may lie in
an outer scope, which was opened before it. A name is looked up from the inner
scope outwards, and bound in the scope where the binding stands, never in an
outer one.
-/

namespace Monkey

/-- The bindings of a scope and the scope around it. -/
structure Scope where
  bindings : Dictionary String Object
  outer : Option ScopeId

/-- What evaluation changes. -/
structure State where
  /-- All scopes, in the order in which they were opened. -/
  scopes : Array Scope
  /-- The number of closures made so far, which is the identity of the next. -/
  closures : Nat
  /-- The text written so far. -/
  output : String

namespace State

/-- No scope is open, and nothing was written. -/
def empty : State := ⟨#[], 0, ""⟩

/-- Opens a scope with the given bindings. Its number is that of the scopes
opened before. -/
def openScope (outer : Option ScopeId) (bindings : Dictionary String Object)
    (state : State) : State :=
  { state with scopes := state.scopes.push ⟨bindings, outer⟩ }

/-- Counts a new closure. Its identity is the number of closures made
before. -/
def countClosure (state : State) : State :=
  { state with closures := state.closures + 1 }

/-- Adds to the text written. -/
def write (text : String) (state : State) : State :=
  { state with output := state.output ++ text }

/-- Binds a name in a scope, in place of an earlier binding of the same
scope. -/
def bind (scope : ScopeId) (name : String) (value : Object) (state : State) : State :=
  { state with
    scopes := state.scopes.modify scope fun found =>
      { found with bindings := Dictionary.insert name value found.bindings } }

/-- Looks a name up in at most `count` scopes, going outwards. -/
def findWithin? (state : State) (name : String) : Nat → ScopeId → Option Object
  | 0, _ => none
  | count + 1, scope =>
      match state.scopes[scope]? with
      | none => none
      | some found =>
          match Dictionary.find? name found.bindings with
          | some value => some value
          | none =>
              match found.outer with
              | none => none
              | some outer => state.findWithin? name count outer

/-- The value of a name in a scope, from the nearest scope that binds it. The
scopes around a scope were opened before it, so their number is at most that
of the scope. -/
def find? (state : State) (scope : ScopeId) (name : String) : Option Object :=
  state.findWithin? name (scope + 1) scope

section Bind

variable (state : State) {scope id : ScopeId} (name : String) (value : Object)

theorem size_bind (scope : ScopeId) :
    (state.bind scope name value).scopes.size = state.scopes.size := by
  simp [bind]

theorem getElem?_bind_self (scope : ScopeId) :
    (state.bind scope name value).scopes[scope]? = state.scopes[scope]?.map fun found =>
      { found with bindings := Dictionary.insert name value found.bindings } := by
  simp [bind, Array.getElem?_modify]

theorem getElem?_bind_of_ne (ne : scope ≠ id) :
    (state.bind scope name value).scopes[id]? = state.scopes[id]? := by
  simp [bind, Array.getElem?_modify, ne]

end Bind

section OpenScope

variable (state : State) {id : ScopeId} (outer : Option ScopeId)
  (bindings : Dictionary String Object)

theorem size_openScope : (state.openScope outer bindings).scopes.size = state.scopes.size + 1 := by
  simp [openScope]

theorem getElem?_openScope_self :
    (state.openScope outer bindings).scopes[state.scopes.size]? = some ⟨bindings, outer⟩ := by
  simp [openScope]

theorem getElem?_openScope_of_ne (ne : id ≠ state.scopes.size) :
    (state.openScope outer bindings).scopes[id]? = state.scopes[id]? := by
  simp [openScope, Array.getElem?_push, ne]

end OpenScope

end State

end Monkey
