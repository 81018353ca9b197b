import Monkey.State

/-!
# Actions

An action changes the state and ends in one of three ways: with a value, with
a signal that stops everything around it up to where the signal is dealt with,
or because calls are nested more deeply than allowed.
-/

namespace Monkey

/-- What stops an evaluation before its end. -/
inductive Signal
  /-- Leaves the function that is being applied. -/
  | return (value : Object)
  /-- Stops the program. -/
  | error (cause : RuntimeError)

/-- How an action ends. -/
inductive Outcome (α : Type)
  | value (result : α) (state : State)
  | signal (raised : Signal) (state : State)
  /-- Calls are nested too deeply. -/
  | exhausted

/-- A change of the state that may end with a value. -/
def Action (α : Type) := State → Outcome α

namespace Action

variable {α β γ : Type}

/-- Ends with a value and changes nothing. -/
def done (result : α) : Action α := fun state => .value result state

/-- Goes on behind an action with what its value calls for. Nothing follows an
action that was stopped. -/
def andThen (action : Action α) (next : α → Action β) : Action β := fun state =>
  match action state with
  | .value result state => next result state
  | .signal raised state => .signal raised state
  | .exhausted => .exhausted

instance : Monad Action where
  pure := done
  bind := andThen

/-- Ends with a signal and changes nothing. -/
def raise (signal : Signal) : Action α := fun state => .signal signal state

/-- Ends because calls are nested too deeply. -/
def exhausted : Action α := fun _ => .exhausted

/-- Ends with the value, or stops the program if there is none. -/
def ofExcept : Except RuntimeError α → Action α
  | .ok result => done result
  | .error cause => raise (.error cause)

/-- Changes the state. -/
def modify (f : State → State) : Action Unit := fun state => .value () (f state)

/-- Ends with the value that a function returns, whether at its end or before. -/
def catchReturn (action : Action Object) : Action Object := fun state =>
  match action state with
  | .signal (.return result) state => .value result state
  | outcome => outcome

@[simp]
theorem pure_apply (result : α) (state : State) :
    (pure result : Action α) state = .value result state := rfl

theorem bind_apply (action : Action α) (next : α → Action β) (state : State) :
    (action >>= next) state =
      match action state with
      | .value result state => next result state
      | .signal raised state => .signal raised state
      | .exhausted => .exhausted := rfl

theorem bind_assoc (action : Action α) (next : α → Action β) (last : β → Action γ) :
    action >>= next >>= last = action >>= fun result => next result >>= last := by
  funext state
  simp only [bind_apply]
  cases action state <;> rfl

theorem pure_bind (result : α) (next : α → Action β) :
    pure result >>= next = next result := rfl

theorem bind_pure (action : Action α) : action >>= pure = action := by
  funext state
  simp only [bind_apply]
  cases action state <;> rfl

end Action

end Monkey
