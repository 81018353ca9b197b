import Monkey.Proofs.Evaluation.Correspondence
import Monkey.Proofs.Evaluation.Isolation
import Monkey.Proofs.Evaluation.Signals
import Monkey.Proofs.State.WellFormed

/-!
# Repeated calls

A call that is made again later runs as it did before: the scopes that it can
reach have not changed, and those that were opened in between only shift the
numbers of the scopes that it opens itself. The two runs correspond under this
shift, so that a closure cannot tell them apart.
-/

namespace Monkey

/-! ## Shifted states -/

/-- The number of a scope in a state where `distance` more scopes were opened
behind the first `bound` ones. -/
def shift (bound distance scope : Nat) : Nat :=
  if scope < bound then scope else scope + distance

section Shift

variable {bound distance scope other : Nat}

theorem shift_of_lt (lt : scope < bound) : shift bound distance scope = scope := if_pos lt

theorem shift_of_le (le : bound ≤ scope) : shift bound distance scope = scope + distance :=
  if_neg (Nat.not_lt.mpr le)

theorem shift_lt_shift_iff : shift bound distance scope < shift bound distance other ↔
    scope < other := by
  unfold shift
  split <;> split <;> omega

theorem shift_eq_shift_iff : shift bound distance scope = shift bound distance other ↔
    scope = other := by
  unfold shift
  split <;> split <;> omega

end Shift

/-- The closures have the same text, and their scopes are shifted. The scope is one
of the first `size` ones. -/
structure Closure.Shifted (bound distance size : Nat) (closure other : Closure) : Prop where
  parameters : other.parameters = closure.parameters
  body : other.body = closure.body
  lt : closure.scope < size
  scope : other.scope = shift bound distance closure.scope

/-- The scopes lie in shifted scopes, which are older, and bind the same names to
objects that are alike but for shifted closures. -/
structure Scope.Shifted (bound distance size : Nat) (id : Nat) (found other : Scope) : Prop where
  outer : other.outer = found.outer.map (shift bound distance)
  older : ∀ outer ∈ found.outer, outer < id
  bindings : Dictionary.Alike (Object.Alike (Closure.Shifted bound distance size)) found.bindings
    other.bindings

/-- The other state has `distance` more scopes behind the first `bound` ones. Both
have written the same behind what had been written when the shift began. -/
structure State.Shifted (bound distance : Nat) (first second : String) (state other : State) :
    Prop where
  le : bound ≤ state.scopes.size
  size : other.scopes.size = state.scopes.size + distance
  output : ∃ text, state.output = first ++ text ∧ other.output = second ++ text
  scopes : ∀ {id : Nat} {found : Scope}, state.scopes[id]? = some found →
    ∃ twin, other.scopes[shift bound distance id]? = some twin ∧
      Scope.Shifted bound distance state.scopes.size id found twin

namespace State.Shifted

variable {bound distance : Nat} {first second : String} {state other : State}

/-- A name has alike values in shifted scopes. -/
theorem findWithin? (shifted : Shifted bound distance first second state other) (name : String)
    {count twinCount scope : Nat} (lt : scope < state.scopes.size)
    (countLt : scope < count) (twinLt : shift bound distance scope < twinCount) :
    Option.Rel (Object.Alike (Closure.Shifted bound distance state.scopes.size))
      (state.findWithin? name count scope)
      (other.findWithin? name twinCount (shift bound distance scope)) := by
  induction count generalizing twinCount scope with
  | zero => exact absurd countLt (Nat.not_lt_zero _)
  | succ count inductionHypothesis =>
    obtain ⟨twinCount, rfl⟩ : ∃ n, twinCount = n + 1 := ⟨twinCount - 1, by omega⟩
    have there : state.scopes[scope]? = some state.scopes[scope] := Array.getElem?_eq_getElem lt
    rcases shifted.scopes there with ⟨twin, twinThere, related⟩
    simp only [State.findWithin?, there, twinThere, related.outer]
    have found := related.bindings.find? name
    generalize Dictionary.find? name state.scopes[scope].bindings = value at found ⊢
    generalize Dictionary.find? name twin.bindings = result at found ⊢
    cases found with
    | some alike => exact .some alike
    | none =>
      cases around : state.scopes[scope].outer with
      | none => exact .none
      | some outer =>
        have older := related.older outer around
        have twinOlder : shift bound distance outer < shift bound distance scope :=
          shift_lt_shift_iff.mpr older
        exact inductionHypothesis (Nat.lt_trans older lt)
          (Nat.lt_of_lt_of_le older (Nat.le_of_lt_succ countLt))
          (Nat.lt_of_lt_of_le twinOlder (Nat.le_of_lt_succ twinLt))

theorem bind (shifted : Shifted bound distance first second state other) (name : String)
    {scope : Nat} {value result : Object}
    (alike : value.Alike (Closure.Shifted bound distance state.scopes.size) result) :
    Shifted bound distance first second (state.bind scope name value)
      (other.bind (shift bound distance scope) name result) := by
  have same : (state.bind scope name value).scopes.size = state.scopes.size := by
    simp [State.bind]
  refine { le := same ▸ shifted.le, size := ?_, output := shifted.output, scopes := ?_ }
  · simpa [State.bind] using shifted.size
  · intro id found there
    rw [same]
    by_cases here : scope = id
    · subst here
      simp only [State.bind, Array.getElem?_modify, if_true] at there ⊢
      rcases Option.map_eq_some_iff.mp there with ⟨old, before, rfl⟩
      rcases shifted.scopes before with ⟨twin, behind, related⟩
      refine ⟨_, Option.map_eq_some_iff.mpr ⟨twin, behind, rfl⟩, ?_⟩
      exact { related with bindings := related.bindings.insert name alike }
    · have apart : shift bound distance scope ≠ shift bound distance id := by
        rwa [ne_eq, shift_eq_shift_iff]
      simp only [State.bind, Array.getElem?_modify, if_neg here, if_neg apart] at there ⊢
      exact shifted.scopes there

theorem openScope (shifted : Shifted bound distance first second state other) {outer : Nat}
    {bindings others : Dictionary String Object} (lt : outer < state.scopes.size)
    (alike : Dictionary.Alike (Object.Alike (Closure.Shifted bound distance state.scopes.size))
      bindings others) :
    Shifted bound distance first second (state.openScope (some outer) bindings)
      (other.openScope (some (shift bound distance outer)) others) := by
  have grown : (state.openScope (some outer) bindings).scopes.size = state.scopes.size + 1 := by
    simp [State.openScope]
  have larger {object result : Object}
      (alike : object.Alike (Closure.Shifted bound distance state.scopes.size) result) :
      object.Alike (Closure.Shifted bound distance (state.scopes.size + 1)) result :=
    alike.mono fun _ _ related => { related with lt := Nat.lt_succ_of_lt related.lt }
  refine { le := ?_, size := ?_, output := shifted.output, scopes := ?_ }
  · exact grown ▸ Nat.le_succ_of_le shifted.le
  · simp only [State.openScope, Array.size_push, shifted.size]
    omega
  · intro id found there
    rw [grown]
    simp only [State.openScope, Array.getElem?_push] at there ⊢
    by_cases new : id = state.scopes.size
    · rw [if_pos new, Option.some.injEq] at there
      subst new there
      rw [shift_of_le shifted.le, if_pos shifted.size.symm]
      refine ⟨_, rfl, rfl, ?_, alike.mono fun _ _ => larger⟩
      rintro _ ⟨⟩
      exact lt
    · rw [if_neg new] at there
      rcases shifted.scopes there with ⟨twin, behind, related⟩
      have apart : shift bound distance id ≠ other.scopes.size := by
        rw [shifted.size, ← shift_of_le shifted.le]
        exact mt shift_eq_shift_iff.mp new
      rw [if_neg apart]
      exact ⟨twin, behind, { related with bindings := related.bindings.mono fun _ _ => larger }⟩

end State.Shifted

/-- Runs in shifted states correspond. -/
def Correspondence.shifted (bound distance : Nat) (first second : String) : Correspondence where
  Readable _ := True
  Closures := Closure.Shifted bound distance
  Scopes size scope twin := scope < size ∧ twin = shift bound distance scope
  States := State.Shifted bound distance first second
  text _ _ related := ⟨related.parameters, related.body⟩
  readable _ _ _ := trivial
  captured related := ⟨related.lt, related.scope⟩
  closures_mono le related := { related with lt := Nat.lt_of_lt_of_le related.lt le }
  scopes_mono le scopes := ⟨Nat.lt_of_lt_of_le scopes.1 le, scopes.2⟩
  find _ states scopes := by
    rcases scopes with ⟨lt, rfl⟩
    exact states.findWithin? _ lt (Nat.lt_succ_self _) (Nat.lt_succ_self _)
  bind name states scopes alike := by
    rcases scopes with ⟨lt, rfl⟩
    exact states.bind name alike
  write output states := by
    rcases states.output with ⟨text, front, back⟩
    refine { states with output := ⟨text ++ output, ?_, ?_⟩ }
    · rw [State.write, front, String.append_assoc]
    · rw [State.write, back, String.append_assoc]
  count states := { states with }
  made _ _ _ _ scopes := ⟨rfl, rfl, scopes.1, scopes.2⟩
  openScope states scopes alike := by
    rcases scopes with ⟨lt, rfl⟩
    exact states.openScope lt alike
  opened states := ⟨Nat.lt_succ_self _, by rw [states.size, shift_of_le states.le]⟩

/-! ## Calls that are made again -/

/-- An object that belongs to a state is the same in every shift behind the scopes of
the state. -/
theorem State.Owns.alike {state : State} {object : Object} (owns : state.Owns object)
    (distance : Nat) :
    object.Alike (Closure.Shifted state.scopes.size distance state.scopes.size) object :=
  Object.EveryClosure.alike (fun _ lt => ⟨rfl, rfl, lt, (shift_of_lt lt).symm⟩) owns

/-- A well-formed state corresponds to every state in which its scopes are still the
same. -/
theorem State.WellFormed.shifted {before later : State} (wellFormed : before.WellFormed)
    (size : before.scopes.size ≤ later.scopes.size) (preserved : before.Preserved later) :
    State.Shifted before.scopes.size (later.scopes.size - before.scopes.size) before.output
      later.output before later where
  le := Nat.le_refl _
  size := (Nat.add_sub_of_le size).symm
  output := ⟨"", by simp, by simp⟩
  scopes := by
    intro id found there
    have lt : id < before.scopes.size := (Array.getElem?_eq_some_iff.mp there).1
    rw [shift_of_lt lt, preserved id lt]
    refine ⟨found, there, ?_, wellFormed.older there, List.forall₂_same.mpr fun binding member =>
      ⟨rfl, (wellFormed.owned there binding member).alike _⟩⟩
    cases around : found.outer with
    | none => rfl
    | some outer =>
      have older := wellFormed.older there outer around
      rw [Option.map_some, shift_of_lt (Nat.lt_trans older lt)]

/-- What happens behind a state while no name is bound in a scope that is there:
completed calls, and anything else that leaves all scopes as they are. -/
inductive State.Later : State → State → Prop
  | refl (state : State) : Later state state
  | call {before middle after : State} (depth : Nat) (function : Object)
      (arguments : List Object) : Later before middle →
        (Object.apply depth function arguments middle).state? = some after → Later before after
  | other {before middle after : State} : Later before middle →
      middle.scopes.size ≤ after.scopes.size → middle.Preserved after → Later before after

/-- A call that is completed leaves all scopes as they are. -/
theorem State.preserved_of_call {depth : Nat} {function : Object} {arguments : List Object}
    {before after : State}
    (finished : (Object.apply depth function arguments before).state? = some after) :
    before.scopes.size ≤ after.scopes.size ∧ before.Preserved after := by
  have isolated := (Logic.isolated.answers_apply depth before.scopes.size function arguments
    trivial fun _ _ => trivial).isolated finished
  exact ⟨isolated.size, fun id lt => isolated.others id lt (Nat.ne_of_lt lt)⟩

theorem State.Preserved.trans {before middle after : State}
    (le : before.scopes.size ≤ middle.scopes.size) (first : before.Preserved middle)
    (second : middle.Preserved after) : before.Preserved after :=
  fun id lt => (second id (Nat.lt_of_lt_of_le lt le)).trans (first id lt)

theorem State.Later.preserved {before after : State} (later : before.Later after) :
    before.scopes.size ≤ after.scopes.size ∧ before.Preserved after := by
  induction later with
  | refl => exact ⟨Nat.le_refl _, fun _ _ => rfl⟩
  | call _ _ _ _ finished inductionHypothesis =>
    have step := State.preserved_of_call finished
    exact ⟨Nat.le_trans inductionHypothesis.1 step.1,
      inductionHypothesis.2.trans inductionHypothesis.1 step.2⟩
  | other _ size preserved inductionHypothesis =>
    exact ⟨Nat.le_trans inductionHypothesis.1 size,
      inductionHypothesis.2.trans inductionHypothesis.1 preserved⟩

/-- A call that was completed in a well-formed state is completed as well when it is
made again later. It ends with an object of the same type and text, or with the same
error, and writes the same. -/
theorem Object.apply_repeats {depth : Nat} {function : Object} {arguments : List Object}
    {before after later : State} (wellFormed : before.WellFormed)
    (ownsFunction : before.Owns function) (ownsArguments : ∀ argument ∈ arguments,
      before.Owns argument)
    (finished : (Object.apply depth function arguments before).state? = some after)
    (reached : after.Later later) :
    ∃ text last, after.output = before.output ++ text ∧ last.output = later.output ++ text ∧
      ((∃ result repeated,
          Object.apply depth function arguments before = .value result after ∧
          Object.apply depth function arguments later = .value repeated last ∧
          repeated.type = result.type ∧ repeated.inspect = result.inspect) ∨
        ∃ cause,
          Object.apply depth function arguments before = .signal (.error cause) after ∧
          Object.apply depth function arguments later = .signal (.error cause) last) := by
  have call := State.preserved_of_call finished
  have behind := reached.preserved
  have shifted := wellFormed.shifted (Nat.le_trans call.1 behind.1)
    (call.2.trans call.1 behind.2)
  have ends := (Correspondence.shifted _ _ _ _).answers_apply depth (ownsFunction.alike _)
    (List.forall₂_same.mpr fun argument member => (ownsArguments argument member).alike _)
    before later (Nat.le_refl _) shifted
  have raises := Object.apply_raisesOnly depth function arguments before
  generalize Object.apply depth function arguments before = outcome at ends raises finished ⊢
  generalize Object.apply depth function arguments later = repetition at ends ⊢
  cases ends with
  | value _ states alike =>
    cases finished
    rcases states.output with ⟨text, first, second⟩
    refine ⟨text, _, first, second, .inl ⟨_, _, rfl, rfl, alike.type_eq, alike.inspect_eq ?_⟩⟩
    exact fun _ _ related => ⟨related.parameters, related.body⟩
  | error cause _ states =>
    cases finished
    rcases states.output with ⟨text, first, second⟩
    exact ⟨text, _, first, second, .inr ⟨cause, rfl, rfl⟩⟩
  | «return» =>
    rcases raises _ _ rfl with ⟨_, raised⟩ | ⟨_, _, _, member⟩
    · cases raised
    · cases member
  | exhausted => cases finished

/-- A function that adds what is bound around it. -/
def Object.adder : Object :=
  .function ⟨0, ["x"], [.expr (.binary (.ident "x") .add (.ident "base"))], 0⟩

/-- A scope that binds an integer and a function that adds it. -/
def State.adding : State :=
  State.empty.openScope none [("base", .integer 10), ("add", .adder)]

/-- A function that makes another one, which writes, calls an argument and gives back
a function that it makes. -/
def Object.nesting : Object :=
  .function ⟨1, ["h"],
    [.bind "g" (.function ["y"]
      [.expr (.call (.ident "puts") [.string "called"]),
        .return (.array [.call (.ident "h") [.ident "y"], .function ["z"] [.expr (.ident "y")]])]),
      .expr (.call (.ident "g") [.call (.ident "add") [.int 1]])], 0⟩

/-- A function that makes a function in its own scope. -/
def Object.making : Object :=
  .function ⟨2, ["a"], [.expr (.function [] [.expr (.ident "a")])], 0⟩

theorem State.adding_wellFormed : State.adding.WellFormed := by
  have only {id : Nat} {found : Scope} (there : State.adding.scopes[id]? = some found) :
      found = ⟨[("base", .integer 10), ("add", .adder)], none⟩ := by
    have lt : id < 1 := (Array.getElem?_eq_some_iff.mp there).1
    obtain rfl : id = 0 := Nat.lt_one_iff.mp lt
    exact (Option.some.inj there).symm
  constructor
  · intro id found there outer around
    rw [only there] at around
    cases around
  · intro id found there binding member
    rw [only there] at member
    simp only [List.mem_cons, List.not_mem_nil, or_false] at member
    rcases member with rfl | rfl
    · exact .integer 10
    · exact .function (by decide)

/-- A function makes functions and calls them. It is called again when another call
has opened a scope and left a function behind in it. -/
theorem Object.apply_repeats_of_nested_closures :
    ∃ after later,
      (Object.apply 3 .nesting [.adder] .adding).state? = some after ∧
      (Object.apply 1 .making [.null] after).state? = some later ∧
      State.adding.scopes.size + 5 = later.scopes.size ∧
      ∃ text last, after.output = State.adding.output ++ text ∧
        last.output = later.output ++ text ∧
        ((∃ result repeated,
            Object.apply 3 .nesting [.adder] .adding = .value result after ∧
            Object.apply 3 .nesting [.adder] later = .value repeated last ∧
            repeated.type = result.type ∧ repeated.inspect = result.inspect) ∨
          ∃ cause,
            Object.apply 3 .nesting [.adder] .adding = .signal (.error cause) after ∧
            Object.apply 3 .nesting [.adder] later = .signal (.error cause) last) := by
  refine ⟨_, _, rfl, rfl, rfl, ?_⟩
  refine Object.apply_repeats State.adding_wellFormed (.function (by decide)) ?_ rfl
    (.call 1 .making [.null] (.refl _) rfl)
  intro argument member
  obtain rfl := List.mem_singleton.mp member
  exact .function (by decide)

end Monkey
