import Monkey.Proofs.Object.Alike
import Monkey.State

/-!
# Well-formed states

A closure refers to the scope in which it was made, wherever it is stored. In a
well-formed state all closures refer to scopes of the state, and every scope lies
in an older one. Properties of objects that evaluation keeps are kept for all the
objects that are bound in a state.
-/

namespace Monkey

/-! ## Closures in objects -/

/-- All closures in an object, at any depth, have a property. -/
inductive Object.EveryClosure (Good : Closure → Prop) : Object → Prop
  | integer (value : Int64) : EveryClosure Good (.integer value)
  | boolean (value : Bool) : EveryClosure Good (.boolean value)
  | null : EveryClosure Good .null
  | string (text : String) : EveryClosure Good (.string text)
  | array {elements : List Object} : (∀ element ∈ elements, EveryClosure Good element) →
      EveryClosure Good (.array elements)
  | hash {entries : Dictionary HashKey (Object × Object)} :
      (∀ entry ∈ entries, EveryClosure Good entry.2.1) →
        (∀ entry ∈ entries, EveryClosure Good entry.2.2) → EveryClosure Good (.hash entries)
  | function {closure : Closure} : Good closure → EveryClosure Good (.function closure)
  | builtin (primitive : Builtin) : EveryClosure Good (.builtin primitive)
  | returnValue {value : Object} : EveryClosure Good value →
      EveryClosure Good (.returnValue value)
  | error (cause : RuntimeError) : EveryClosure Good (.error cause)

namespace Object

variable {Good Better : Closure → Prop} {Rel : Closure → Closure → Prop}

/-- An object is like itself if its closures are related to themselves. -/
theorem EveryClosure.alike (related : ∀ closure, Good closure → Rel closure closure)
    {object : Object} (every : object.EveryClosure Good) : object.Alike Rel object := by
  induction every with
  | integer value => exact .integer value
  | boolean value => exact .boolean value
  | null => exact .null
  | string text => exact .string text
  | array _ parts => exact .array (List.forall₂_same.mpr parts)
  | hash _ _ keys values =>
    exact .hash (List.forall₂_same.mpr fun entry member =>
      .mk entry.1 (keys entry member) (values entry member))
  | function good => exact .function (related _ good)
  | builtin primitive => exact .builtin primitive
  | returnValue _ value => exact .returnValue value
  | error cause => exact .error cause

mutual

/-- The closures in an object have a property if all closures have it that are
related to another. -/
theorem Alike.everyClosure (good : ∀ closure other, Rel closure other → Good closure) :
    ∀ {object other : Object}, object.Alike Rel other → object.EveryClosure Good
  | _, _, .integer value => .integer value
  | _, _, .boolean value => .boolean value
  | _, _, .null => .null
  | _, _, .string text => .string text
  | _, _, .array parts => .array (Alike.everyClosureList good parts)
  | _, _, .hash parts =>
      .hash (fun entry member => (Alike.everyClosureEntries good parts entry member).1)
        fun entry member => (Alike.everyClosureEntries good parts entry member).2
  | _, _, .function related => .function (good _ _ related)
  | _, _, .builtin primitive => .builtin primitive
  | _, _, .returnValue value => .returnValue (Alike.everyClosure good value)
  | _, _, .error cause => .error cause

theorem Alike.everyClosureList (good : ∀ closure other, Rel closure other → Good closure) :
    ∀ {elements others : List Object}, List.Forall₂ (Alike Rel) elements others →
      ∀ element ∈ elements, element.EveryClosure Good
  | _, _, .nil => List.forall_mem_nil _
  | _, _, .cons first rest =>
      List.forall_mem_cons.mpr ⟨Alike.everyClosure good first, Alike.everyClosureList good rest⟩

theorem Alike.everyClosureEntries (good : ∀ closure other, Rel closure other → Good closure) :
    ∀ {entries others : Dictionary HashKey (Object × Object)},
      List.Forall₂ (EntryAlike Rel) entries others →
        ∀ entry ∈ entries, entry.2.1.EveryClosure Good ∧ entry.2.2.EveryClosure Good
  | _, _, .nil => List.forall_mem_nil _
  | _, _, .cons (.mk _ key value) rest =>
      List.forall_mem_cons.mpr
        ⟨⟨Alike.everyClosure good key, Alike.everyClosure good value⟩,
          Alike.everyClosureEntries good rest⟩

end

theorem EveryClosure.mono (better : ∀ closure, Good closure → Better closure) {object : Object}
    (every : object.EveryClosure Good) : object.EveryClosure Better := by
  have alike : object.Alike (fun closure _ => Good closure) object := by
    refine every.alike ?_
    exact fun _ good => good
  exact alike.everyClosure fun closure _ => better closure

end Object

/-! ## Objects in states -/

/-- Every object that is bound in a scope has a property. -/
def State.EveryObject (Good : Object → Prop) (state : State) : Prop :=
  ∀ (id : ScopeId) (found : Scope), state.scopes[id]? = some found →
    ∀ binding ∈ found.bindings, Good binding.2

namespace State.EveryObject

variable {Good Better : Object → Prop} {state : State}

theorem mono (better : ∀ object, Good object → Better object) (every : state.EveryObject Good) :
    state.EveryObject Better :=
  fun id found there binding member => better _ (every id found there binding member)

theorem openScope (every : state.EveryObject Good) (outer : Option ScopeId)
    {bindings : Dictionary String Object} (good : ∀ binding ∈ bindings, Good binding.2) :
    (state.openScope outer bindings).EveryObject Good := by
  intro id found there
  by_cases new : id = state.scopes.size
  · rw [new, getElem?_openScope_self] at there
    cases there
    exact good
  · rw [getElem?_openScope_of_ne _ _ _ new] at there
    exact every id found there

theorem bind (every : state.EveryObject Good) {value : Object} (good : Good value)
    (scope : ScopeId) (name : String) : (state.bind scope name value).EveryObject Good := by
  intro id found there
  by_cases here : scope = id
  · subst here
    rw [getElem?_bind_self] at there
    rcases Option.map_eq_some_iff.mp there with ⟨old, before, rfl⟩
    exact Dictionary.forall_mem_insert good (every scope old before)
  · rw [getElem?_bind_of_ne _ _ _ here] at there
    exact every id found there

theorem findWithin? (every : state.EveryObject Good) {name : String} {count : Nat}
    {id : ScopeId} {value : Object} (found : state.findWithin? name count id = some value) :
    Good value := by
  induction count generalizing id with
  | zero => cases found
  | succ count inductionHypothesis =>
    simp only [State.findWithin?] at found
    cases there : state.scopes[id]? with
    | none => simp [there] at found
    | some scope =>
      cases bound : Dictionary.find? name scope.bindings with
      | some object =>
        simp only [there, bound, Option.some.injEq] at found
        subst found
        exact every id scope there _ (Dictionary.mem_of_find?_eq_some bound)
      | none =>
        cases around : scope.outer with
        | none => simp [there, bound, around] at found
        | some outer =>
          simp only [there, bound, around] at found
          exact inductionHypothesis found

end State.EveryObject

/-! ## Well-formed states -/

/-- The closures in the object captured scopes of the state. -/
def State.Owns (state : State) (object : Object) : Prop :=
  object.EveryClosure fun closure => closure.scope < state.scopes.size

/-- Every scope lies in an older one, and what is bound in it belongs to the
state. -/
structure State.WellFormed (state : State) : Prop where
  older : ∀ {id : Nat} {found : Scope}, state.scopes[id]? = some found →
    ∀ outer ∈ found.outer, outer < id
  owned : ∀ {id : Nat} {found : Scope}, state.scopes[id]? = some found →
    ∀ binding ∈ found.bindings, state.Owns binding.2

theorem State.Owns.mono {state larger : State} {object : Object}
    (le : state.scopes.size ≤ larger.scopes.size) (owns : state.Owns object) :
    larger.Owns object :=
  Object.EveryClosure.mono (fun _ lt => Nat.lt_of_lt_of_le lt le) owns

namespace State.WellFormed

variable {state : State}

theorem empty : State.empty.WellFormed where
  older there := by simp [State.empty] at there
  owned there := by simp [State.empty] at there

theorem everyObject (wellFormed : state.WellFormed) : state.EveryObject state.Owns :=
  fun _ _ => wellFormed.owned

/-- A scope may be opened inside one that is there, with bindings to objects that
belong to the state. -/
theorem openScope (wellFormed : state.WellFormed) {outer : Option ScopeId}
    {bindings : Dictionary String Object} (there : ∀ id ∈ outer, id < state.scopes.size)
    (owned : ∀ binding ∈ bindings, state.Owns binding.2) :
    (state.openScope outer bindings).WellFormed where
  older {id found} at_id := by
    by_cases new : id = state.scopes.size
    · rw [new, getElem?_openScope_self] at at_id
      cases at_id
      exact new ▸ there
    · rw [getElem?_openScope_of_ne _ _ _ new] at at_id
      exact wellFormed.older at_id
  owned {id found} := by
    have le : state.scopes.size ≤ (state.openScope outer bindings).scopes.size :=
      size_openScope state outer bindings ▸ Nat.le_succ _
    exact ((wellFormed.everyObject.openScope outer owned).mono fun _ => .mono le) id found

/-- A name may be bound to an object that belongs to the state. -/
theorem bind (wellFormed : state.WellFormed) (scope : ScopeId) (name : String) {value : Object}
    (owns : state.Owns value) : (state.bind scope name value).WellFormed where
  older {id found} at_id := by
    by_cases here : scope = id
    · subst here
      rw [getElem?_bind_self] at at_id
      rcases Option.map_eq_some_iff.mp at_id with ⟨old, before, rfl⟩
      have older := wellFormed.older before
      exact older
    · rw [getElem?_bind_of_ne _ _ _ here] at at_id
      exact wellFormed.older at_id
  owned {id found} := by
    have le : state.scopes.size ≤ (state.bind scope name value).scopes.size :=
      Nat.le_of_eq (size_bind ..).symm
    exact ((wellFormed.everyObject.bind owns scope name).mono fun _ => .mono le) id found

end State.WellFormed

end Monkey
