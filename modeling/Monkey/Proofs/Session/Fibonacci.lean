import Mathlib.Data.Nat.Fib.Basic
import Monkey.Proofs.Evaluation.Arithmetic
import Monkey.Proofs.Evaluation.Delivery
import Monkey.Proofs.Syntax.Canonical

/-!
# Recursion through a binding of the session

A function that calls itself finds itself in the scope in which it was bound, when it is
called. The function for Fibonacci numbers does so twice, and leaves early by a return in
a condition without an alternative. Between its calls no scope that was there changes, so
it delivers its number whatever the depth of the recursion. Numbers that do not fit wrap
around.
-/

namespace Monkey

open Token

/-! ## The function -/

/-- The source of a session that binds the function. -/
def Session.fibonacci : String :=
  "let fib = fn(n) \x7b\n  if (n < 2) \x7b return n; \x7d\n  fib(n - 1) + fib(n - 2)\n\x7d;\n"

/-- The body of the function. -/
def Block.fibonacci : Block :=
  [.expr (.cond (.binary (.ident "n") .less (.int 2)) [.return (.ident "n")] none),
    .expr (.binary (.call (.ident "fib") [.binary (.ident "n") .subtract (.int 1)]) .add
      (.call (.ident "fib") [.binary (.ident "n") .subtract (.int 2)]))]

/-- Nothing separates the condition from the sum behind it but its last brace. -/
theorem Session.ofSource_fibonacci :
    Draft.ofSource fibonacci = ⟨[.bind "fib" (.function ["n"] Block.fibonacci)], []⟩ := by
  have tokens : Token.ofSource fibonacci =
      [.keyword .bind, .ident "fib", .symbol .assign, .keyword .function, .symbol .leftParen,
        .ident "n", .symbol .rightParen, .symbol .leftBrace,
        .keyword .cond, .symbol .leftParen, .ident "n", .symbol .less, .int "2",
        .symbol .rightParen, .symbol .leftBrace, .keyword .return, .ident "n", .symbol .semicolon,
        .symbol .rightBrace,
        .ident "fib", .symbol .leftParen, .ident "n", .symbol .minus, .int "1",
        .symbol .rightParen, .symbol .plus,
        .ident "fib", .symbol .leftParen, .ident "n", .symbol .minus, .int "2",
        .symbol .rightParen,
        .symbol .rightBrace, .symbol .semicolon] := by
    decide +kernel
  rw [Draft.ofSource, tokens]
  rfl

theorem Session.ofSource_callFibonacci {n : Nat} (bounded : n < 2 ^ 63) :
    Draft.ofSource ("fib(" ++ toString n ++ ")") =
      ⟨[.expr (.call (.ident "fib") [.int (.ofNat n)])], []⟩ := by
  have number : (Int64.ofNat n).toInt = n := Int64.toInt_ofNat_of_lt bounded
  have text : (Expr.call (.ident "fib") [.int (.ofNat n)]).text = "fib(" ++ toString n ++ ")" := by
    rw [Expr.text, Expr.texts, Expr.texts, Expr.text, Expr.text, number]
    rfl
  have isName : IsName "fib" := ⟨by decide, List.all_eq_true.mp rfl, rfl⟩
  have argument : ∀ value ∈ [Expr.int (.ofNat n)],
      ∃ tokens, Spells value.text.toList tokens value := by
    rw [List.forall_mem_singleton]
    exact spells_int (number ▸ Int.natCast_nonneg n)
  rw [← text]
  exact Spells.draft_ofSource (spells_call ⟨_, spells_ident isName⟩ argument)

/-! ## One call -/

section Body

variable {call : Caller} {scope : ScopeId} {state : State} {function : Object} {n : Nat}

/-- The condition holds of the numbers of which it holds among the natural numbers. -/
theorem Expr.delivers_lt_two (bounded : n < 2 ^ 63)
    (number : state.Means scope "n" (.integer (.ofNat n))) :
    ((Expr.binary (.ident "n") .less (.int 2)).eval call scope).Delivers state
      (· = .boolean (n < 2)) := by
  have less : Int64.ofNat n < 2 ↔ n < 2 := by
    rw [Int64.lt_iff_toInt_lt, Int64.toInt_ofNat_of_lt bounded]
    exact Int.ofNat_lt
  refine Expr.delivers_binary (Expr.delivers_ident number) (Expr.delivers_int 2) ?_
  exact congrArg (fun decided => Except.ok (Object.boolean decided)) (decide_eq_decide.mpr less)

/-- A call with an earlier number delivers what is answered to that number. -/
theorem Expr.delivers_earlier {m : Nat} {value : Object} (back : Nat)
    (number : state.Means scope "n" (.integer (.ofNat n)))
    (named : state.Means scope "fib" function) (earlier : m + back = n)
    (answers : (call function [.integer (.ofNat m)]).Delivers state (· = value)) :
    ((Expr.call (.ident "fib") [.binary (.ident "n") .subtract (.int (.ofNat back))]).eval call
      scope).Delivers state (· = value) := by
  have difference : Int64.ofNat n - Int64.ofNat back = Int64.ofNat m := by
    rw [← earlier, Int64.ofNat_add]
    exact Int64.add_sub_cancel _ _
  have argument : ((Expr.binary (.ident "n") .subtract (.int (.ofNat back))).eval call
      scope).Delivers state (· = .integer (.ofNat m)) := by
    refine Expr.delivers_binary (Expr.delivers_ident number) (Expr.delivers_int _) ?_
    exact congrArg (fun value => Except.ok (Object.integer value)) difference
  exact Expr.delivers_call_of_values (Expr.delivers_ident named) (.cons argument .nil) answers

/-- The body delivers the Fibonacci number of the argument if the calls in it do. -/
theorem Block.delivers_fibonacci (bounded : n < 2 ^ 63)
    (number : state.Means scope "n" (.integer (.ofNat n)))
    (named : state.Means scope "fib" function)
    (answers : ∀ m < n,
      (call function [.integer (.ofNat m)]).Delivers state (· = .integer (.ofNat (Nat.fib m)))) :
    ((Block.eval call scope Block.fibonacci).catchReturn).Delivers state
      (· = .integer (.ofNat (Nat.fib n))) := by
  rw [Block.eval, Block.fibonacci, Block.evalFrom, Stmt.eval, Expr.eval, Action.bind_assoc]
  refine .catchReturn_andThen (Expr.delivers_lt_two bounded number) ?_
  rcases Nat.lt_or_ge n 2 with small | large
  · -- The return leaves the branch and the body around it at once.
    have fixed : Nat.fib n = n := by
      rcases Nat.le_one_iff_eq_zero_or_eq_one.mp (Nat.le_of_lt_succ small) with rfl | rfl <;> rfl
    have taken : (Object.boolean (decide (n < 2))).isTruthy = true := decide_eq_true small
    rw [taken, if_pos rfl, Block.evalFrom, Stmt.eval, Action.bind_assoc, Action.bind_assoc]
    exact .catchReturn_andThen (Expr.delivers_ident number)
      (.catchReturn_raise (by rw [fixed]) _)
  · obtain ⟨m, rfl⟩ := Nat.exists_eq_add_of_le' large
    have first := Expr.delivers_earlier 1 number named rfl (answers (m + 1) (Nat.lt_succ_self _))
    have second := Expr.delivers_earlier 2 number named rfl
      (answers m (Nat.lt_add_of_pos_right Nat.two_pos))
    have sum : Int64.ofNat (Nat.fib (m + 1)) + Int64.ofNat (Nat.fib m) =
        Int64.ofNat (Nat.fib (m + 2)) := by
      rw [Nat.fib_add_two, Nat.add_comm (Nat.fib m), Int64.ofNat_add]
    have skipped : (Object.boolean (decide (m + 2 < 2))).isTruthy = false :=
      decide_eq_false (Nat.not_lt.mpr large)
    rw [skipped, if_neg Bool.false_ne_true]
    refine .catchReturn (.andThen (.done rfl) ?_)
    refine Block.delivers_singleton (Expr.delivers_binary first second ?_) _
    exact congrArg (fun value => Except.ok (Object.integer value)) sum

end Body

/-! ## All calls -/

/-- Called with a number that is less than the depth, the function delivers the Fibonacci
number of it, as long as it is found under its name in its scope. -/
theorem Object.delivers_fibonacci {identity : Nat} {home : ScopeId} {depth n : Nat} {state : State}
    (bounded : n < 2 ^ 63) (enough : n < depth)
    (named : state.Means home "fib" (.function ⟨identity, ["n"], Block.fibonacci, home⟩)) :
    (Object.apply depth (.function ⟨identity, ["n"], Block.fibonacci, home⟩)
      [.integer (.ofNat n)]).Delivers state (· = .integer (.ofNat (Nat.fib n))) := by
  induction n using Nat.strongRecOn generalizing depth state with
  | ind n inductionHypothesis =>
    obtain ⟨depth, rfl⟩ := Nat.exists_eq_add_one_of_ne_zero (Nat.ne_zero_of_lt enough)
    refine Object.delivers_apply rfl named.lt fun now id undisturbed frame => ?_
    have still := undisturbed.means named
    refine Block.delivers_fibonacci bounded (frame.means rfl) (frame.means_outer rfl still) ?_
    intro m earlier
    exact inductionHypothesis m earlier (Nat.lt_trans earlier bounded)
      (Nat.lt_of_lt_of_le earlier (Nat.le_of_lt_succ enough)) still

/-- A session that binds the function by its source finishes, and from then on, whatever is
bound beside it, a call of the function with any natural number below `2 ^ 63` finishes with
the Fibonacci number of it, reduced to 64 bits, writes nothing, and changes no scope. -/
theorem Session.run_fibonacci {scope : ScopeId} {start : State}
    (there : scope < start.scopes.size) :
    ∃ defined, (∀ depth, run depth scope fibonacci start = .finished .null defined) ∧
      defined.output = start.output ∧
      ∀ state names, defined.Isolated scope names state → "fib" ∉ names →
        ∀ n < 2 ^ 63, ∃ value after,
          (∀ depth, n < depth →
            run depth scope ("fib(" ++ toString n ++ ")") state =
              .finished (.integer value) after) ∧
          Represents value (Nat.fib n) ∧ after.output = state.output ∧ state.Preserved after := by
  refine ⟨start.define scope "fib" ["n"] Block.fibonacci, fun depth => ?_, rfl, ?_⟩
  · exact run_of_value ofSource_fibonacci rfl .null
  · intro state names isolated free n bounded
    have named := (State.means_define "fib" ["n"] Block.fibonacci there).isolated isolated free
    have answers := Object.delivers_fibonacci bounded (Nat.lt_succ_self n) named
    have delivers := Expr.delivers_call_of_values (Expr.delivers_ident named)
      (.cons (Expr.delivers_int (.ofNat n)) .nil) answers
    obtain ⟨after, finishes, undisturbed⟩ :=
      finishes_of_delivers (ofSource_callFibonacci bounded) delivers (.integer _)
    exact ⟨_, after, finishes, .ofNat _, undisturbed.output, undisturbed.preserved⟩

/-- The number with the index 93 is greater than `2 ^ 63`. -/
theorem Session.run_fibonacci_of_overflow :
    0 < (State.empty.openScope none []).scopes.size ∧ ∃ defined after,
      (∀ depth, run depth 0 fibonacci (State.empty.openScope none []) =
        .finished .null defined) ∧
      (∀ depth, 93 < depth →
        run depth 0 "fib(93)" defined = .finished (.integer (-6246583658587674878)) after) ∧
      after.output = "" ∧ defined.Preserved after := by
  have there : 0 < (State.empty.openScope none []).scopes.size := Nat.zero_lt_one
  obtain ⟨defined, finished, silent, calls⟩ := run_fibonacci there
  obtain ⟨value, after, answers, represents, unwritten, preserved⟩ :=
    calls defined [] (.of_scopes_eq rfl) List.not_mem_nil 93 (by decide)
  have wrapped : (-6246583658587674878 : Int64) = value :=
    Int64.toInt_inj.mp (represents.unique _ (by decide) (by decide) (by decide))
  subst wrapped
  exact ⟨there, defined, after, finished, answers, unwritten.trans silent, preserved⟩

end Monkey
