import Monkey.Evaluation

/-!
# Returns at the end of a function

A return that a function comes to at its very end says no more than the expression
in it. The end of a body is its last statement, and if that is a condition, the ends
of its branches. There a return may be left out: where it stood, the function ends
with the value instead of a signal, and the call makes the one of the other. An
object that is a return value or an error is neither, so the call passes it on.
-/

namespace Monkey

/-! ## Bodies without returns at their ends -/

mutual

/-- The last statement of a body, without the returns at its ends. -/
def Stmt.withoutTailReturn : Stmt → Stmt
  | .return value => .expr value
  | .expr (.cond condition consequence none) =>
      .expr (.cond condition (Block.withoutTailReturn consequence) none)
  | .expr (.cond condition consequence (some alternative)) =>
      .expr (.cond condition (Block.withoutTailReturn consequence)
        (some (Block.withoutTailReturn alternative)))
  | statement => statement

/-- A body without the returns at its ends. -/
def Block.withoutTailReturn : List Stmt → List Stmt
  | [] => []
  | [statement] => [statement.withoutTailReturn]
  | statement :: next :: rest => statement :: Block.withoutTailReturn (next :: rest)

end

/-! ## What a call makes of an end -/

namespace Action

variable {α : Type}

/-- A call makes the same of two runs that go on from the same beginning if it makes
the same of what they go on with. -/
theorem catchReturn_bind_congr {next later : α → Action Object}
    (same : ∀ result, (next result).catchReturn = (later result).catchReturn)
    (action : Action α) :
    (action >>= next).catchReturn = (action >>= later).catchReturn := by
  funext state
  simp only [catchReturn, bind_apply]
  cases action state with
  | value result state => exact congrFun (same result) state
  | signal raised state => rfl
  | exhausted => rfl

/-- A call makes the same of a value as of the return of that value. -/
theorem catchReturn_bind_raise (action : Action Object) :
    (action >>= fun value => raise (.return value)).catchReturn = action.catchReturn := by
  funext state
  simp only [catchReturn, bind_apply, raise]
  cases action state with
  | value result state => rfl
  | signal raised state => cases raised <;> rfl
  | exhausted => rfl

end Action

section Evaluation

variable (call : Caller) (scope : ScopeId)

mutual

/-- A call makes the same of a last statement with the returns at its ends and without
them. -/
theorem Stmt.catchReturn_withoutTailReturn : ∀ statement : Stmt,
    (statement.withoutTailReturn.eval call scope).catchReturn =
      (statement.eval call scope).catchReturn
  | .return value => by
    rw [Stmt.withoutTailReturn, Stmt.eval, Stmt.eval]
    exact (Action.catchReturn_bind_raise _).symm
  | .expr (.cond condition consequence none) => by
    rw [Stmt.withoutTailReturn, Stmt.eval, Stmt.eval, Expr.eval, Expr.eval]
    refine Action.catchReturn_bind_congr (fun value => ?_) _
    split
    · exact Block.catchReturn_withoutTailReturn .null consequence
    · rfl
  | .expr (.cond condition consequence (some alternative)) => by
    rw [Stmt.withoutTailReturn, Stmt.eval, Stmt.eval, Expr.eval, Expr.eval]
    refine Action.catchReturn_bind_congr (fun value => ?_) _
    split
    · exact Block.catchReturn_withoutTailReturn .null consequence
    · exact Block.catchReturn_withoutTailReturn .null alternative
  | .bind _ _ => rfl
  | .expr (.ident _) | .expr (.int _) | .expr (.bool _) | .expr (.string _) => rfl
  | .expr (.unary _ _) | .expr (.binary _ _ _) | .expr (.function _ _) => rfl
  | .expr (.call _ _) | .expr (.array _) | .expr (.index _ _) | .expr (.hash _) => rfl

/-- A call makes the same of a body with the returns at its ends and without them. -/
theorem Block.catchReturn_withoutTailReturn (last : Object) : ∀ block : List Stmt,
    (Block.evalFrom call scope last (Block.withoutTailReturn block)).catchReturn =
      (Block.evalFrom call scope last block).catchReturn
  | [] => rfl
  | [statement] => by
    have alone (statement : Stmt) :
        Block.evalFrom call scope last [statement] = statement.eval call scope := by
      rw [Block.evalFrom]
      exact Action.bind_pure _
    rw [Block.withoutTailReturn, alone, alone]
    exact Stmt.catchReturn_withoutTailReturn statement
  | statement :: next :: rest => by
    rw [Block.withoutTailReturn, Block.evalFrom, Block.evalFrom]
    exact Action.catchReturn_bind_congr
      (fun value => Block.catchReturn_withoutTailReturn value (next :: rest)) _

end

end Evaluation

/-- The returns at the ends of the body of a function are redundant. Calls of the
function with them and without them end alike, with the same value or error, the same
text written and the same scopes, or both do not end. -/
theorem Object.apply_withoutTailReturn (depth identity other : Nat) (parameters : List String)
    (body : Block) (scope : ScopeId) (arguments : List Object) (state : State) :
    Object.apply depth (.function ⟨other, parameters, Block.withoutTailReturn body, scope⟩)
        arguments state =
      Object.apply depth (.function ⟨identity, parameters, body, scope⟩) arguments state := by
  by_cases matching : parameters.length = arguments.length
  · cases depth with
    | zero => simp only [Object.apply, matching, if_true]
    | succ depth =>
      simp only [Object.apply, matching, if_true, Action.inScope]
      exact congrFun (Block.catchReturn_withoutTailReturn _ _ .null body) _
  · unfold Object.apply
    simp only [matching, if_false]

/-- Only the returns at the ends are left out, in both branches of a last condition. -/
example :
    Block.withoutTailReturn
      [.expr (.cond (.ident "a") [.return (.int 1)] none),
       .expr (.cond (.ident "b") [.expr (.int 2), .return (.int 3)] (some [.return (.int 4)]))] =
      [.expr (.cond (.ident "a") [.return (.int 1)] none),
       .expr (.cond (.ident "b") [.expr (.int 2), .expr (.int 3)] (some [.expr (.int 4)]))] :=
  rfl

end Monkey
