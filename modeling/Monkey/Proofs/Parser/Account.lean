import Mathlib.Data.List.Nodup
import Monkey.Proofs.Parser.Trace
import Monkey.Syntax.Draft.Depth

/-!
# Runs that account for their tokens

A run accounts for its tokens if its attempts at statements begin at different
ones of them, and if every statement in its value was read in one of the
attempts. Runs one behind the other account for the tokens of both.
-/

namespace Monkey

/-! ## Counting statements -/

mutual

/-- The number of statements in an expression, at any depth. -/
def Expr.statementCount : Expr → Nat
  | .ident _ | .int _ | .bool _ | .string _ => 0
  | .unary _ operand => operand.statementCount
  | .binary left _ right => left.statementCount + right.statementCount
  | .cond condition consequence none =>
      condition.statementCount + Block.statementCount consequence
  | .cond condition consequence (some alternative) =>
      condition.statementCount + Block.statementCount consequence +
        Block.statementCount alternative
  | .function _ body => Block.statementCount body
  | .call callee arguments => callee.statementCount + Expr.listStatementCount arguments
  | .array elements => Expr.listStatementCount elements
  | .index left position => left.statementCount + position.statementCount
  | .hash pairs => Expr.pairStatementCount pairs

/-- The number of statements in a list of expressions. -/
def Expr.listStatementCount : List Expr → Nat
  | [] => 0
  | expression :: rest => expression.statementCount + Expr.listStatementCount rest

/-- The number of statements in the pairs of a hash literal. -/
def Expr.pairStatementCount : List (Expr × Expr) → Nat
  | [] => 0
  | (key, value) :: rest =>
      key.statementCount + value.statementCount + Expr.pairStatementCount rest

/-- The number of statements inside a statement. -/
def Stmt.innerCount : Stmt → Nat
  | .bind _ value => value.statementCount
  | .return value => value.statementCount
  | .expr value => value.statementCount

/-- The number of statements in a block, those inside its statements included. -/
def Block.statementCount : List Stmt → Nat
  | [] => 0
  | statement :: rest => 1 + statement.innerCount + Block.statementCount rest

end

theorem Block.statementCount_append (front back : Block) :
    Block.statementCount (front ++ back) =
      Block.statementCount front + Block.statementCount back := by
  induction front with
  | nil => simp [Block.statementCount]
  | cons statement rest inductionHypothesis =>
    simp only [List.cons_append, Block.statementCount, inductionHypothesis]
    omega

/-! ## Attempts -/

namespace Attempt

/-- The attempt leaves one diagnostic of its own if there is no statement in the end, and
none if there is one. -/
def Balanced (attempt : Attempt) : Prop :=
  attempt.own.length = if attempt.result.isNone then 1 else 0

/-- The attempt ended in this way: with the statement, or without one and with nothing but
the diagnostic of the failure. -/
def EndsAs (attempt : Attempt) : Except Diagnostic Stmt → Prop
  | .ok statement => attempt.result = some statement ∧ attempt.own = []
  | .error diagnostic => attempt.result = none ∧ attempt.own = [diagnostic]

/-- The attempt ended as reading a statement at its start does. -/
def Genuine (attempt : Attempt) : Prop :=
  attempt.EndsAs
    (Parser.statement (Parser.sufficientDepth attempt.start.length) attempt.start).outcome

/-- A statement that deep enough parsers attempt is the one that is there. -/
theorem EndsAs.genuine {attempt : Attempt} {depth : Nat}
    (ends : attempt.EndsAs (Parser.statement depth attempt.start).outcome)
    (le : 8 * (attempt.start.length + 1) + 3 ≤ depth) : attempt.Genuine := by
  have settled := Parser.settled depth (Parser.sufficientDepth attempt.start.length)
    (attempt.start.length + 1)
  have same := settled.statement le (by unfold Parser.sufficientDepth; omega) attempt.start
    (Nat.lt_succ_self _)
  rw [Genuine, ← same]
  exact ends

theorem Genuine.balanced {attempt : Attempt} (genuine : attempt.Genuine) : attempt.Balanced := by
  unfold Genuine EndsAs at genuine
  split at genuine <;> rcases genuine with ⟨result, own⟩ <;> rw [Balanced, result, own] <;> rfl

end Attempt

/-- The number of attempts in which a statement was read. -/
def readCount (attempts : List Attempt) : Nat :=
  (attempts.filterMap Attempt.result).length

theorem readCount_append (front back : List Attempt) :
    readCount (front ++ back) = readCount front + readCount back := by
  simp [readCount]

/-- Every attempt leaves a diagnostic or a statement. -/
theorem length_own_add_readCount {attempts : List Attempt}
    (balanced : ∀ attempt ∈ attempts, attempt.Balanced) :
    (attempts.flatMap Attempt.own).length + readCount attempts = attempts.length := by
  induction attempts with
  | nil => rfl
  | cons attempt rest inductionHypothesis =>
    have behind := inductionHypothesis fun other member => balanced other (.tail _ member)
    have single : attempt.own.length + readCount [attempt] = 1 := by
      rw [balanced attempt (.head _), readCount]
      cases ended : attempt.result <;> simp [ended]
    have joined : readCount (attempt :: rest) = readCount [attempt] + readCount rest :=
      readCount_append [attempt] rest
    rw [List.flatMap_cons, List.length_append, joined, List.length_cons]
    omega

/-- There is no diagnostic if and only if every attempt gave a statement. -/
theorem flatMap_own_eq_nil_iff {attempts : List Attempt}
    (balanced : ∀ attempt ∈ attempts, attempt.Balanced) :
    attempts.flatMap Attempt.own = [] ↔ ∀ attempt ∈ attempts, attempt.result ≠ none := by
  rw [List.flatMap_eq_nil_iff]
  apply forall₂_congr
  intro attempt member
  rw [← List.length_eq_zero_iff, balanced attempt member]
  cases attempt.result <;> simp

/-! ## Runs that account for their tokens -/

/-- A run accounts for the tokens between `base` and its rest: its attempts begin
at different ones of these tokens, all diagnostics but those that belong to no attempt
are those of the attempts, and for every statement in its value, but for `carried` many,
there is an attempt that read it. -/
structure Run.Accounts {α : Type} (run : Run α) (size : α → Nat) (carried : Nat)
    (base : List Token) : Prop where
  suffix : run.rest <:+ base
  genuine : ∀ attempt ∈ run.log.attempts, attempt.Genuine
  starts : ∀ attempt ∈ run.log.attempts,
    attempt.start <:+ base ∧ run.rest.length < attempt.start.length
  distinct : (run.log.attempts.map Attempt.start).Nodup
  errors : run.log.errors = run.log.attempts.flatMap Attempt.own ++ run.log.own
  length : run.log.attempts.length + run.rest.length ≤ base.length
  size : ∀ value, run.result = some value → size value ≤ carried + readCount run.log.attempts

namespace Run.Accounts

variable {α β : Type} {size : α → Nat} {carried : Nat} {base : List Token}

/-- A run without an attempt. -/
theorem quiet {own : List Diagnostic} {result : Option α} {rest : List Token}
    (suffix : rest <:+ base) (le : ∀ value, result = some value → size value ≤ carried) :
    (⟨⟨own, own, []⟩, result, rest⟩ : Run α).Accounts size carried base where
  suffix := suffix
  genuine := List.forall_mem_nil _
  starts := List.forall_mem_nil _
  distinct := List.nodup_nil
  errors := rfl
  length := by simpa using suffix.length_le
  size := le

theorem map {run : Run α} {larger : β → Nat} {f : α → β} (accounts : run.Accounts size carried base)
    (le : ∀ value, larger (f value) ≤ size value) : (run.map f).Accounts larger carried base where
  suffix := accounts.suffix
  genuine := accounts.genuine
  starts := accounts.starts
  distinct := accounts.distinct
  errors := accounts.errors
  length := accounts.length
  size := by
    rcases run with ⟨log, _ | value, rest⟩
    · rintro _ ⟨⟩
    · rintro _ ⟨⟩
      exact Nat.le_trans (le value) (accounts.size value rfl)

/-- More tokens may stand in front. -/
theorem mono {run : Run α} {larger : List Token} (accounts : run.Accounts size carried base)
    (suffix : base <:+ larger) : run.Accounts size carried larger where
  suffix := accounts.suffix.trans suffix
  genuine := accounts.genuine
  starts attempt member :=
    ⟨(accounts.starts attempt member).1.trans suffix, (accounts.starts attempt member).2⟩
  distinct := accounts.distinct
  errors := accounts.errors
  length := Nat.le_trans accounts.length suffix.length_le
  size := accounts.size

/-- One run behind another. -/
theorem append {larger : β → Nat} {errors : List Diagnostic} {attempts : List Attempt}
    {value : α} {rest : List Token} {run : Run β}
    (first : (⟨⟨errors, [], attempts⟩, some value, rest⟩ : Run α).Accounts size carried base)
    (second : run.Accounts larger (size value) rest) :
    (⟨⟨errors, [], attempts⟩ ++ run.log, run.result, run.rest⟩ : Run β).Accounts larger carried
      base where
  suffix := second.suffix.trans first.suffix
  genuine attempt member :=
    (List.mem_append.mp member).elim (first.genuine attempt) (second.genuine attempt)
  starts attempt member := by
    rcases List.mem_append.mp member with member | member
    · have start := first.starts attempt member
      exact ⟨start.1, Nat.lt_of_le_of_lt second.suffix.length_le start.2⟩
    · have start := second.starts attempt member
      exact ⟨start.1.trans first.suffix, start.2⟩
  distinct := by
    change ((attempts ++ run.log.attempts).map Attempt.start).Nodup
    rw [List.map_append, List.nodup_append]
    refine ⟨first.distinct, second.distinct, ?_⟩
    -- The first run ended before the second began.
    intro front frontMember back backMember same
    rcases List.mem_map.mp frontMember with ⟨earlier, earlierMember, rfl⟩
    rcases List.mem_map.mp backMember with ⟨later, laterMember, rfl⟩
    have before := (first.starts earlier earlierMember).2
    have behind := (second.starts later laterMember).1.length_le
    rw [same] at before
    exact absurd behind (Nat.not_le_of_lt before)
  errors := by
    have front : errors = attempts.flatMap Attempt.own ++ [] := first.errors
    change errors ++ run.log.errors =
      (attempts ++ run.log.attempts).flatMap Attempt.own ++ run.log.own
    rw [front, second.errors, List.append_nil, List.flatMap_append, List.append_assoc]
  length := by
    have firstLength : attempts.length + rest.length ≤ base.length := first.length
    have secondLength := second.length
    change (attempts ++ run.log.attempts).length + run.rest.length ≤ base.length
    rw [List.length_append]
    omega
  size result eq := by
    have firstSize : size value ≤ carried + readCount attempts := first.size value rfl
    have secondSize := second.size result eq
    change larger result ≤ carried + readCount (attempts ++ run.log.attempts)
    rw [readCount_append]
    omega

/-- An attempt at a statement, whose tokens behind the first one its run accounts
for. -/
theorem attempt {run : Run Stmt} {token : Token}
    (accounts : run.Accounts Stmt.innerCount 0 base)
    (genuine : Attempt.Genuine ⟨token :: base, run.log.own, run.result⟩) :
    (⟨⟨run.log.errors, [], run.log.attempts ++ [⟨token :: base, run.log.own, run.result⟩]⟩,
      some run.result.toList, run.rest⟩ : Run Block).Accounts
        Block.statementCount 0 (token :: base) where
  suffix := accounts.suffix.trans (List.suffix_cons _ _)
  genuine attempt member := by
    rcases List.mem_append.mp member with member | member
    · exact accounts.genuine attempt member
    · exact List.mem_singleton.mp member ▸ genuine
  starts attempt member := by
    rcases List.mem_append.mp member with member | member
    · have start := accounts.starts attempt member
      exact ⟨start.1.trans (List.suffix_cons _ _), start.2⟩
    · rw [List.mem_singleton.mp member]
      exact ⟨List.suffix_refl _, Nat.lt_succ_of_le accounts.suffix.length_le⟩
  distinct := by
    rw [List.map_append, List.nodup_append]
    refine ⟨accounts.distinct, List.nodup_singleton _, ?_⟩
    -- The attempts inside the statement begin behind its first token.
    intro start startMember whole wholeMember same
    rcases List.mem_map.mp startMember with ⟨inner, innerMember, rfl⟩
    have behind := (accounts.starts inner innerMember).1.length_le
    rw [same, List.mem_singleton.mp wholeMember] at behind
    exact absurd behind (Nat.not_succ_le_self _)
  errors := by
    rw [List.flatMap_append, List.flatMap_singleton, List.append_nil]
    exact accounts.errors
  length := by
    have length := accounts.length
    simp only [List.length_append, List.length_cons, List.length_nil]
    omega
  size block eq := by
    cases eq
    rw [readCount_append]
    rcases run with ⟨log, _ | statement, rest⟩
    · exact Nat.zero_le _
    · have size : statement.innerCount ≤ 0 + readCount log.attempts :=
        accounts.size statement rfl
      have single : Block.statementCount [statement] = 1 + statement.innerCount + 0 := rfl
      have one : readCount [⟨token :: base, log.own, some statement⟩] = 1 := rfl
      simp only [Option.toList_some, single, one]
      omega

end Run.Accounts

end Monkey
