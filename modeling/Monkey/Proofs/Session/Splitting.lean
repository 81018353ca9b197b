import Monkey.Proofs.Evaluation.Isolation
import Monkey.Proofs.Evaluation.Position

/-!
# Splitting a session

A program may be split into parts that a session is given one after the other. As
long as no part raises a signal, the last part has the value of the whole program
and leaves the same state behind. A part that raises a signal has the value of the
whole program, and nothing behind the statement that raised it is evaluated.

A signal is not the object that it carries: a part whose value is a return value or
an error that a host has bound ends like any other.
-/

namespace Monkey

/-- The value of a program that ends with a signal. -/
def Signal.answer : Signal → Object
  | .return value => value
  | .error cause => .error cause

namespace Program

/-- The statements of the program end with a value, not with a signal. -/
def Yields (depth : Nat) (scope : ScopeId) (program : Program) (before after : State) : Prop :=
  ∃ value, Block.eval (Object.apply depth) scope program before = .value value after

/-- Evaluates programs one after the other, each in the state that the one before it
left behind. The value is that of the last program. -/
def evalEach (depth : Nat) (scope : ScopeId) (last : Object) :
    List Program → State → Option (Object × State)
  | [], state => some (last, state)
  | program :: rest, state =>
      (Program.eval depth scope program state).bind fun ended =>
        evalEach depth scope ended.1 rest ended.2

variable {depth : Nat} {scope : ScopeId} {program first second : Program}
  {before middle after : State} {value : Object} {raised : Signal}

/-! ## Programs and their statements -/

theorem eval_of_value
    (ran : Block.eval (Object.apply depth) scope program before = .value value after) :
    ∃ answer, Program.eval depth scope program before = some (answer, after) := by
  cases value <;> exact ⟨_, by rw [Program.eval, ran]⟩

theorem eval_of_signal
    (ran : Block.eval (Object.apply depth) scope program before = .signal raised after) :
    Program.eval depth scope program before = some (raised.answer, after) := by
  cases raised <;> rw [Program.eval, ran] <;> rfl

/-- How a program ends depends on nothing but how its statements end. -/
theorem eval_congr
    (same : Block.eval (Object.apply depth) scope first before =
      Block.eval (Object.apply depth) scope second middle) :
    Program.eval depth scope first before = Program.eval depth scope second middle := by
  rw [Program.eval, Program.eval, same]

/-- A signal comes from the first statement that has no value. -/
theorem exists_statement_of_signal {last : Object}
    (ran : Block.evalFrom (Object.apply depth) scope last program before = .signal raised after) :
    ∃ front statement back middle, program = front ++ statement :: back ∧
      InTurn (Stmt.Yields (Object.apply depth) scope) front before middle ∧
      statement.eval (Object.apply depth) scope middle = .signal raised after := by
  induction program generalizing last before with
  | nil => cases ran
  | cons statement rest inductionHypothesis =>
    rw [Block.evalFrom, Action.bind_apply] at ran
    cases first : statement.eval (Object.apply depth) scope before with
    | value value middle =>
      rw [first] at ran
      rcases inductionHypothesis ran with ⟨front, raising, back, reached, rfl, yields, raises⟩
      exact ⟨statement :: front, raising, back, reached, rfl, .cons ⟨value, first⟩ yields, raises⟩
    | signal other next =>
      rw [first] at ran
      exact ⟨[], statement, rest, before, rfl, .nil before, first.trans ran⟩
    | exhausted =>
      rw [first] at ran
      cases ran

/-! ## Programs behind each other -/

/-- What stands before some statements has no influence on how these end. -/
theorem evalFrom_of_ne_nil (nonempty : program ≠ []) (call : Caller) (last : Object) :
    Block.evalFrom call scope last program = Block.eval call scope program := by
  cases program with
  | nil => exact absurd rfl nonempty
  | cons => rfl

/-- Behind statements that end with a value, others end as if they stood alone. -/
theorem eval_append_of_value (nonempty : second ≠ [])
    (ran : Block.eval (Object.apply depth) scope first before = .value value middle) :
    Program.eval depth scope (first ++ second) before =
      Program.eval depth scope second middle := by
  apply eval_congr
  rw [Block.eval] at ran
  rw [Block.eval, Block.evalFrom_append, Action.bind_apply, ran]
  exact congrFun (evalFrom_of_ne_nil nonempty _ value) middle

/-- Nothing behind statements that end with a signal is evaluated. -/
theorem eval_append_of_signal (second : Program)
    (ran : Block.eval (Object.apply depth) scope first before = .signal raised after) :
    Program.eval depth scope (first ++ second) before = some (raised.answer, after) := by
  apply eval_of_signal
  rw [Block.eval] at ran
  rw [Block.eval, Block.evalFrom_append, Action.bind_apply, ran]

/-! ## Any number of programs -/

theorem evalEach_append (front back : List Program) (last : Object) (state : State) :
    evalEach depth scope last (front ++ back) state =
      (evalEach depth scope last front state).bind fun ended =>
        evalEach depth scope ended.1 back ended.2 := by
  induction front generalizing last state with
  | nil => rfl
  | cons program front inductionHypothesis =>
    rw [List.cons_append, evalEach, evalEach, Option.bind_assoc]
    exact congrArg _ (funext fun ended => inductionHypothesis ended.1 ended.2)

/-- Behind programs that end with values a session is in the state that these lead
to. -/
theorem evalEach_of_yields {front : List Program}
    (yields : InTurn (Program.Yields depth scope) front before middle) (last : Object) :
    ∃ answer, evalEach depth scope last front before = some (answer, middle) := by
  induction yields generalizing last with
  | nil => exact ⟨last, rfl⟩
  | cons step _ inductionHypothesis =>
    rcases step with ⟨value, ran⟩
    rcases eval_of_value ran with ⟨answer, ended⟩
    rw [evalEach, ended]
    exact inductionHypothesis answer

/-- Behind programs that end with values, the next one has the value of the
session. -/
theorem evalEach_append_singleton {front : List Program} (program : Program)
    (yields : InTurn (Program.Yields depth scope) front before middle) (last : Object) :
    evalEach depth scope last (front ++ [program]) before =
      Program.eval depth scope program middle := by
  rcases evalEach_of_yields yields last with ⟨answer, reached⟩
  rw [evalEach_append, reached, Option.bind_some, evalEach]
  exact Option.bind_fun_some _

/-- Together, programs that end with values lead to the same state. -/
theorem yields_flatten {front : List Program}
    (yields : InTurn (Program.Yields depth scope) front before middle) :
    Program.Yields depth scope front.flatten before middle := by
  -- A program without statements hands on the value of the one before it.
  suffices ran : ∀ last, ∃ value,
      Block.evalFrom (Object.apply depth) scope last front.flatten before =
        .value value middle from ran .null
  induction yields with
  | nil => exact fun last => ⟨last, rfl⟩
  | cons step _ inductionHypothesis =>
    intro last
    rcases step with ⟨_, ran⟩
    rcases Block.evalFrom_of_eval_eq_value ran last with ⟨carried, ran⟩
    rw [List.flatten_cons, Block.evalFrom_append, Action.bind_apply, ran]
    exact inductionHypothesis carried

/-- As long as no part before the last one raises a signal, the parts of a program
that are evaluated one after the other end with the value and the state of the whole
program. A part that raises a signal ends with the value and the state of the whole
program, whatever stands behind it. It stops at the first statement that has no value,
which leaves what was bound before as it is, but for names that are bound in the
statement itself. -/
theorem eval_flatten (depth : Nat) (scope : ScopeId) (before : State) :
    (∀ (first second : Program) (middle : State), second ≠ [] →
      Program.Yields depth scope first before middle →
        (∃ answer, Program.eval depth scope first before = some (answer, middle)) ∧
        Program.eval depth scope (first ++ second) before =
          Program.eval depth scope second middle) ∧
    (∀ (first second : Program) (raised : Signal) (after : State),
      Block.eval (Object.apply depth) scope first before = .signal raised after →
        Program.eval depth scope first before = some (raised.answer, after) ∧
        Program.eval depth scope (first ++ second) before =
          Program.eval depth scope first before ∧
        ∃ front statement back middle, first = front ++ statement :: back ∧
          InTurn (Stmt.Yields (Object.apply depth) scope) front before middle ∧
          statement.eval (Object.apply depth) scope middle = .signal raised after ∧
          middle.Isolated scope (targets statement.statements) after) ∧
    (∀ (front : List Program) (last : Program) (middle : State), last ≠ [] →
      InTurn (Program.Yields depth scope) front before middle →
        Program.eval depth scope (front ++ [last]).flatten before =
          evalEach depth scope .null (front ++ [last]) before) ∧
    (∀ (front back : List Program) (program : Program) (raised : Signal) (middle after : State),
      InTurn (Program.Yields depth scope) front before middle →
      Block.eval (Object.apply depth) scope program middle = .signal raised after →
        evalEach depth scope .null (front ++ [program]) before = some (raised.answer, after) ∧
        Program.eval depth scope (front ++ program :: back).flatten before =
          evalEach depth scope .null (front ++ [program]) before) := by
  refine ⟨?values, ?signals, ?parts, ?stopped⟩
  case values =>
    rintro first second middle nonempty ⟨value, ran⟩
    exact ⟨eval_of_value ran, eval_append_of_value nonempty ran⟩
  case signals =>
    intro first second raised after ran
    have ended := eval_of_signal ran
    refine ⟨ended, (eval_append_of_signal second ran).trans ended.symm, ?_⟩
    rcases exists_statement_of_signal ran with
      ⟨front, statement, back, middle, split, yields, raises⟩
    have answers := Logic.isolated.answers_apply depth
    refine ⟨front, statement, back, middle, split, yields, raises, ?_⟩
    exact (Logic.stmt answers scope statement).isolated (by rw [raises]; rfl)
  case parts =>
    intro front last middle nonempty yields
    rcases yields_flatten yields with ⟨value, ran⟩
    rw [List.flatten_append, List.flatten_singleton, eval_append_of_value nonempty ran,
      evalEach_append_singleton last yields]
  case stopped =>
    intro front back program raised middle after yields ran
    have ended := eval_of_signal ran
    rw [evalEach_append_singleton program yields, ended]
    refine ⟨rfl, ?_⟩
    have nonempty : program ++ back.flatten ≠ [] := by
      intro empty
      rw [(List.append_eq_nil_iff.mp empty).1] at ran
      cases ran
    rcases yields_flatten yields with ⟨value, passed⟩
    rw [List.flatten_append, List.flatten_cons, eval_append_of_value nonempty passed,
      eval_append_of_signal back.flatten ran]

/-- A scope in which a host has bound a return value and an error. -/
def hosting : State :=
  State.empty.openScope none
    [("held", .returnValue (.integer 7)), ("broken", .error (.notAFunction .null))]

/-- The program reads both objects as values. -/
def reading : Program :=
  [.bind "a" (.ident "held"), .expr (.ident "broken")]

/-- The program returns such an object, between two bindings. -/
def leaving : Program :=
  [.bind "b" (.ident "a"), .return (.ident "a"), .bind "a" (.int 1)]

/-- A return value that is bound leaves no program, and is itself what a program
returns. -/
theorem eval_flatten_of_heldSignals :
    Program.eval 0 0 (reading ++ leaving) hosting =
      Program.eval 0 0 leaving (hosting.bind 0 "a" (.returnValue (.integer 7))) ∧
    Program.eval 0 0 (leaving ++ reading) (hosting.bind 0 "a" (.integer 5)) =
      some (.integer 5, (hosting.bind 0 "a" (.integer 5)).bind 0 "b" (.integer 5)) ∧
    Program.eval 0 0 [reading, [], leaving].flatten hosting =
      evalEach 0 0 .null [reading, [], leaving] hosting ∧
    Program.eval 0 0 [reading, leaving, reading].flatten hosting =
      some (.returnValue (.integer 7), (hosting.bind 0 "a" (.returnValue (.integer 7))).bind 0 "b"
        (.returnValue (.integer 7))) := by
  have reads : Program.Yields 0 0 reading hosting
      (hosting.bind 0 "a" (.returnValue (.integer 7))) := ⟨_, rfl⟩
  refine ⟨?_, ?_, ?_, ?_⟩
  · exact ((eval_flatten 0 0 hosting).1 reading leaving _ nofun reads).2
  · have leaves := (eval_flatten 0 0 (hosting.bind 0 "a" (.integer 5))).2.1 leaving reading
      (.return (.integer 5)) _ rfl
    exact leaves.2.1.trans leaves.1
  · exact (eval_flatten 0 0 hosting).2.2.1 [reading, []] leaving _ nofun
      (.cons reads (.cons ⟨_, rfl⟩ (.nil _)))
  · have leaves := (eval_flatten 0 0 hosting).2.2.2 [reading] [reading] leaving
      (.return (.returnValue (.integer 7))) _ _ (.cons reads (.nil _)) rfl
    exact leaves.2.trans leaves.1

end Program

end Monkey
