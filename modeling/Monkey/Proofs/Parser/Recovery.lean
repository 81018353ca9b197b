import Monkey.Proofs.Parser.Tracking

/-!
# Recovery from diagnostics

Reading a source comes to its end, and every attempt at a statement begins at a
token of its own. A statement that is dropped leaves one diagnostic, and no
diagnostic comes from anywhere else. Each attempt takes at least the token at
which it begins, so there are no more diagnostics and statements than tokens.
-/

namespace Monkey

namespace Tracer

/-- The parsers of a depth are tracked on lists of fewer than `bound` tokens, if the
depth is large enough; compare `Parser.Settled`. -/
structure Traced (depth bound : Nat) : Prop where
  expression : ∀ floor, 8 * bound + 2 ≤ depth → ∀ tokens, tokens.length < bound →
    Tracks (expression depth floor tokens) (Parser.expression depth floor tokens)
      Expr.statementCount 0 tokens.tail
  extend : ∀ floor left, 8 * bound + 1 ≤ depth → ∀ tokens, tokens.length < bound →
    Tracks (extend depth floor left tokens) (Parser.extend depth floor left tokens)
      Expr.statementCount left.statementCount tokens
  continued : ∀ left follow, 8 * bound + 5 ≤ depth → ∀ tokens, tokens.length < bound →
    Tracks (continued depth left follow tokens) (Parser.continued depth left follow tokens)
      Expr.statementCount left.statementCount tokens
  operand : 8 * bound + 1 ≤ depth → ∀ tokens, tokens.length < bound →
    Tracks (operand depth tokens) (Parser.operand depth tokens) Expr.statementCount 0 tokens.tail
  grouped : 8 * bound + 3 ≤ depth → ∀ tokens, tokens.length < bound →
    Tracks (grouped depth tokens) (Parser.grouped depth tokens) Expr.statementCount 0 tokens
  conditional : 8 * bound + 1 ≤ depth → ∀ tokens, tokens.length < bound →
    Tracks (conditional depth tokens) (Parser.conditional depth tokens)
      Expr.statementCount 0 tokens
  otherwise : 8 * bound + 1 ≤ depth → ∀ tokens, tokens.length < bound →
    Tracks (otherwise depth tokens) (Parser.otherwise depth tokens)
      (fun body => Block.statementCount (body.getD [])) 0 tokens
  functionLiteral : 8 * bound + 1 ≤ depth → ∀ tokens, tokens.length < bound →
    Tracks (functionLiteral depth tokens) (Parser.functionLiteral depth tokens)
      Expr.statementCount 0 tokens
  listing : ∀ close, 8 * bound + 4 ≤ depth → ∀ tokens, tokens.length < bound →
    Tracks (listing depth close tokens) (Parser.listing depth close tokens)
      Expr.listStatementCount 0 tokens
  items : ∀ close, 8 * bound + 3 ≤ depth → ∀ tokens, tokens.length < bound →
    Tracks (items depth close tokens) (Parser.items depth close tokens)
      Expr.listStatementCount 0 tokens
  pairs : 8 * bound + 3 ≤ depth → ∀ tokens, tokens.length < bound →
    Tracks (pairs depth tokens) (Parser.pairs depth tokens) Expr.pairStatementCount 0 tokens
  statement : 8 * bound + 3 ≤ depth → ∀ tokens, tokens.length < bound →
    Tracks (statement depth tokens) (Parser.statement depth tokens) Stmt.innerCount 0 tokens.tail
  block : 8 * bound + 4 ≤ depth → ∀ tokens, tokens.length < bound →
    Tracks (block depth tokens) (Parser.ofDraft (Parser.block depth) tokens)
      Block.statementCount 0 tokens

/-! ## Parsers of one more depth -/

namespace Traced

variable {depth bound : Nat} {tokens : List Token}

/-- What an expression accounts for lies behind its first token, and so among all
its tokens. -/
theorem expression_of_lt (traced : Traced depth bound) (floor : Level)
    (le : 8 * bound + 2 ≤ depth) (lt : tokens.length < bound) :
    Tracks (Tracer.expression depth floor tokens) (Parser.expression depth floor tokens)
      Expr.statementCount 0 tokens :=
  (traced.expression floor le tokens lt).mono (List.tail_suffix tokens)

theorem expression_succ (here : Traced depth (bound + 1)) (floor : Level)
    (le : 8 * (bound + 1) + 1 ≤ depth) (lt : tokens.length < bound + 1) :
    Tracks (Tracer.expression (depth + 1) floor tokens)
      (Parser.expression (depth + 1) floor tokens) Expr.statementCount 0 tokens.tail := by
  simp only [Tracer.expression, Parser.expression]
  refine (here.operand le tokens lt).bind fun left rest suffix => ?_
  have shorter := suffix.length_le
  have tail := (List.tail_suffix tokens).length_le
  exact here.extend floor left le rest (by omega)

theorem extend_succ (behind : Traced depth bound) (floor : Level) (left : Expr)
    (le : 8 * (bound + 1) ≤ depth) (lt : tokens.length < bound + 1) :
    Tracks (Tracer.extend (depth + 1) floor left tokens)
      (Parser.extend (depth + 1) floor left tokens) Expr.statementCount left.statementCount
      tokens := by
  have done : Tracks (Tracer.done left tokens) (Parser.done left tokens)
      Expr.statementCount left.statementCount tokens :=
    Tracks.done (Nat.le_refl _)
  cases tokens with
  | nil => exact done
  | cons token rest =>
    have shorter : rest.length < bound := Nat.lt_of_succ_lt_succ lt
    rcases follows : token.follow? with _ | follow
    · simpa only [Tracer.extend, Parser.extend, follows] using done
    · by_cases binds : floor < follow.level
      · simp only [Tracer.extend, Parser.extend, follows, if_pos binds]
        refine Tracks.mono ?_ (List.suffix_cons token rest)
        refine (behind.continued left follow (by omega) rest shorter).bind
          fun value remaining suffix => ?_
        have le := suffix.length_le
        exact behind.extend floor value (by omega) remaining (by omega)
      · simpa only [Tracer.extend, Parser.extend, follows, if_neg binds] using done

theorem continued_succ (here : Traced depth (bound + 1)) (left : Expr) (follow : Follow)
    (le : 8 * (bound + 1) + 4 ≤ depth) (lt : tokens.length < bound + 1) :
    Tracks (Tracer.continued (depth + 1) left follow tokens)
      (Parser.continued (depth + 1) left follow tokens) Expr.statementCount left.statementCount
      tokens := by
  cases follow with
  | binary op =>
    simp only [Tracer.continued, Parser.continued]
    refine ((here.expression_of_lt op.level (by omega) lt).carry left.statementCount).bind
      fun right rest _ => ?_
    exact .done (Nat.le_refl _)
  | call =>
    simp only [Tracer.continued, Parser.continued]
    refine ((here.listing .rightParen le tokens lt).carry left.statementCount).bind
      fun arguments rest _ => ?_
    exact .done (Nat.le_refl _)
  | index =>
    simp only [Tracer.continued, Parser.continued]
    refine ((here.expression_of_lt .lowest (by omega) lt).carry left.statementCount).bind
      fun position rest _ => ?_
    exact .expect_bind fun remaining _ => .done (Nat.le_refl _)

theorem operand_succ (behind : Traced depth bound) (le : 8 * (bound + 1) ≤ depth)
    (lt : tokens.length < bound + 1) :
    Tracks (Tracer.operand (depth + 1) tokens) (Parser.operand (depth + 1) tokens)
      Expr.statementCount 0 tokens.tail := by
  simp only [Tracer.operand]
  split
  case h_1 name rest => exact .done (Nat.le_refl _)
  case h_2 digits rest => exact .integer digits
  case h_3 text rest => exact .done (Nat.le_refl _)
  case h_4 rest => exact .done (Nat.le_refl _)
  case h_5 rest => exact .done (Nat.le_refl _)
  case h_6 rest =>
    exact (behind.expression_of_lt .unary (by omega) (Nat.lt_of_succ_lt_succ lt)).map
      fun _ => Nat.le_refl _
  case h_7 rest =>
    exact (behind.expression_of_lt .unary (by omega) (Nat.lt_of_succ_lt_succ lt)).map
      fun _ => Nat.le_refl _
  case h_8 rest => exact behind.grouped (by omega) rest (Nat.lt_of_succ_lt_succ lt)
  case h_9 rest => exact behind.conditional (by omega) rest (Nat.lt_of_succ_lt_succ lt)
  case h_10 rest => exact behind.functionLiteral (by omega) rest (Nat.lt_of_succ_lt_succ lt)
  case h_11 rest =>
    exact (behind.listing .rightBracket (by omega) rest (Nat.lt_of_succ_lt_succ lt)).map
      fun _ => Nat.le_refl _
  case h_12 rest =>
    exact (behind.pairs (by omega) rest (Nat.lt_of_succ_lt_succ lt)).map fun _ => Nat.le_refl _
  case h_13 token rest =>
    simp only [Parser.operand]
    exact .fail _
  case h_14 => exact .fail _

theorem grouped_succ (here : Traced depth (bound + 1)) (le : 8 * (bound + 1) + 2 ≤ depth)
    (lt : tokens.length < bound + 1) :
    Tracks (Tracer.grouped (depth + 1) tokens) (Parser.grouped (depth + 1) tokens)
      Expr.statementCount 0 tokens := by
  simp only [Tracer.grouped, Parser.grouped]
  refine (here.expression_of_lt .lowest le lt).bind fun inner rest _ => ?_
  exact .expect_bind fun remaining _ => .done (Nat.le_refl _)

theorem conditional_succ (behind : Traced depth bound) (le : 8 * (bound + 1) ≤ depth)
    (lt : tokens.length < bound + 1) :
    Tracks (Tracer.conditional (depth + 1) tokens) (Parser.conditional (depth + 1) tokens)
      Expr.statementCount 0 tokens := by
  simp only [Tracer.conditional, Parser.conditional]
  refine .expect_bind fun first eq => ?_
  subst eq
  have shorter : first.length < bound := Nat.lt_of_succ_lt_succ lt
  refine (behind.grouped (by omega) first shorter).bind fun condition second suffix => ?_
  refine .expect_bind fun third eq => ?_
  subst eq
  have thirdLe := suffix.length_le
  rw [List.length_cons] at thirdLe
  refine ((behind.block (by omega) third (by omega)).carry condition.statementCount).bind
    fun consequence fourth suffix => ?_
  have fourthLe := suffix.length_le
  refine ((behind.otherwise (by omega) fourth (by omega)).carry
    (condition.statementCount + Block.statementCount consequence)).bind
    fun alternative last _ => ?_
  refine .done ?_
  cases alternative with
  | none => exact Nat.le_refl _
  | some alternative => exact Nat.le_refl _

theorem otherwise_succ (behind : Traced depth bound) (le : 8 * (bound + 1) ≤ depth)
    (lt : tokens.length < bound + 1) :
    Tracks (Tracer.otherwise (depth + 1) tokens) (Parser.otherwise (depth + 1) tokens)
      (fun body => Block.statementCount (body.getD [])) 0 tokens := by
  simp only [Tracer.otherwise]
  split
  case h_1 rest =>
    refine Tracks.mono ?_ (List.suffix_cons _ rest)
    refine .expect_bind fun first eq => ?_
    subst eq
    have shorter : first.length + 1 < bound := Nat.lt_of_succ_lt_succ lt
    refine (behind.block (by omega) first (by omega)).bind fun body last _ => ?_
    exact .done (Nat.le_refl _)
  case h_2 tokens other =>
    simp only [Parser.otherwise]
    exact .done (Nat.le_refl _)

theorem functionLiteral_succ (behind : Traced depth bound) (le : 8 * (bound + 1) ≤ depth)
    (lt : tokens.length < bound + 1) :
    Tracks (Tracer.functionLiteral (depth + 1) tokens) (Parser.functionLiteral (depth + 1) tokens)
      Expr.statementCount 0 tokens := by
  simp only [Tracer.functionLiteral, Parser.functionLiteral]
  refine .expect_bind fun first eq => ?_
  subst eq
  have shorter : first.length < bound := Nat.lt_of_succ_lt_succ lt
  refine .silent_bind Parser.silent_parameters (.parameters (by omega))
    fun names second _ suffix => ?_
  have secondLe := suffix.length_le
  refine .expect_bind fun third eq => ?_
  subst eq
  rw [List.length_cons] at secondLe
  refine (behind.block (by omega) third (by omega)).bind fun body last _ => ?_
  exact .done (Nat.le_refl _)

theorem listing_succ (here : Traced depth (bound + 1)) (close : Symbol)
    (le : 8 * (bound + 1) + 3 ≤ depth) (lt : tokens.length < bound + 1) :
    Tracks (Tracer.listing (depth + 1) close tokens) (Parser.listing (depth + 1) close tokens)
      Expr.listStatementCount 0 tokens := by
  simp only [Tracer.listing, Parser.listing]
  refine .accept_bind (fun rest _ => ?_) ?_
  · exact .done (Nat.le_refl _)
  · exact here.items close le tokens lt

theorem items_succ (here : Traced depth (bound + 1)) (behind : Traced depth bound)
    (close : Symbol) (le : 8 * (bound + 1) + 2 ≤ depth) (lt : tokens.length < bound + 1) :
    Tracks (Tracer.items (depth + 1) close tokens) (Parser.items (depth + 1) close tokens)
      Expr.listStatementCount 0 tokens := by
  simp only [Tracer.items, Parser.items]
  refine (here.expression_of_lt .lowest le lt).bind fun item rest suffix => ?_
  refine .accept_bind (fun remaining eq => ?_) ?_
  · subst eq
    have le := suffix.length_le
    rw [List.length_cons] at le
    refine ((behind.items close (by omega) remaining (by omega)).carry item.statementCount).bind
      fun items last _ => ?_
    exact .done (Nat.le_refl _)
  · exact .expect_bind fun remaining _ => .done (Nat.le_refl _)

theorem pairs_succ (here : Traced depth (bound + 1)) (behind : Traced depth bound)
    (le : 8 * (bound + 1) + 2 ≤ depth) (lt : tokens.length < bound + 1) :
    Tracks (Tracer.pairs (depth + 1) tokens) (Parser.pairs (depth + 1) tokens)
      Expr.pairStatementCount 0 tokens := by
  simp only [Tracer.pairs, Parser.pairs]
  refine .accept_bind (fun rest _ => ?_) ?_
  · exact .done (Nat.le_refl _)
  refine (here.expression_of_lt .lowest le lt).bind fun key first suffix => ?_
  refine .expect_bind fun second eq => ?_
  subst eq
  have secondLe := suffix.length_le
  rw [List.length_cons] at secondLe
  refine ((behind.expression_of_lt .lowest (by omega) (by omega)).carry key.statementCount).bind
    fun value third suffix => ?_
  have thirdLe := suffix.length_le
  refine .accept_bind (fun rest _ => ?_) ?_
  · exact .done (Nat.le_refl _)
  refine .expect_bind fun fourth eq => ?_
  subst eq
  rw [List.length_cons] at thirdLe
  refine ((behind.pairs (by omega) fourth (by omega)).carry
    (key.statementCount + value.statementCount)).bind fun others last _ => ?_
  exact .done (Nat.le_refl _)

/-- An expression whose semicolon may be missing, as a statement. -/
theorem ending (here : Traced depth (bound + 1)) (build : Expr → Stmt)
    (inner : ∀ value, (build value).innerCount = value.statementCount)
    (le : 8 * (bound + 1) + 2 ≤ depth) (lt : tokens.length < bound + 1) :
    Tracks
      ((Tracer.expression depth .lowest >>= fun value =>
        Tracer.accept .semicolon >>= fun _ => pure (build value)) tokens)
      ((Parser.expression depth .lowest >>= fun value =>
        Parser.accept .semicolon >>= fun _ => pure (build value)) tokens)
      Stmt.innerCount 0 tokens.tail := by
  refine (here.expression .lowest le tokens lt).bind fun value rest _ => ?_
  refine .silent_bind (Parser.silent_accept .semicolon) (.accept .semicolon) fun _ _ _ _ => ?_
  exact .done (Nat.le_of_eq (inner value))

theorem statement_succ (here : Traced depth (bound + 1)) (le : 8 * (bound + 1) + 2 ≤ depth)
    (lt : tokens.length < bound + 1) :
    Tracks (Tracer.statement (depth + 1) tokens) (Parser.statement (depth + 1) tokens)
      Stmt.innerCount 0 tokens.tail := by
  simp only [Tracer.statement]
  split
  case h_1 rest =>
    refine .silent_bind Parser.silent_identifier .identifier fun name first _ suffix => ?_
    refine .expect_bind fun second eq => ?_
    subst eq
    have secondLe := suffix.length_le
    rw [List.length_cons] at secondLe lt
    exact (here.ending (.bind name) (fun _ => rfl) le (by omega)).mono (List.tail_suffix second)
  case h_2 rest =>
    exact (here.ending .return (fun _ => rfl) le (Nat.lt_of_succ_lt lt)).mono
      (List.tail_suffix rest)
  case h_3 =>
    simp only [Parser.statement]
    exact here.ending .expr (fun _ => rfl) le lt

theorem block_succ (here : Traced depth (bound + 1)) (behind : Traced depth bound)
    (le : 8 * (bound + 1) + 3 ≤ depth) (lt : tokens.length < bound + 1) :
    Tracks (Tracer.block (depth + 1) tokens) (Parser.ofDraft (Parser.block (depth + 1)) tokens)
      Block.statementCount 0 tokens := by
  simp only [Tracer.block]
  split
  case h_1 => exact .done (Nat.le_refl _)
  case h_2 rest =>
    refine Tracks.mono ?_ (List.suffix_cons _ rest)
    exact .done (Nat.le_refl _)
  case h_3 nonempty open_ =>
    cases tokens with
    | nil => exact absurd rfl nonempty
    | cons token rest =>
      have ne : token ≠ .symbol .rightBrace := by
        rintro rfl
        exact open_ rest rfl
      have first := here.statement (by omega) (token :: rest) lt
      rw [Parser.ofDraft, Parser.block_cons depth ne]
      refine .attempt_bind (Tracer.block depth) (Parser.block depth)
        (by rw [List.length_cons] at lt ⊢; omega) first fun remaining le => ?_
      exact behind.block (by omega) remaining
        (Nat.lt_of_le_of_lt le (Nat.lt_of_succ_lt_succ lt))

end Traced

/-- The parsers of every depth are tracked. -/
theorem traced (depth bound : Nat) : Traced depth bound := by
  induction depth generalizing bound with
  | zero => constructor <;> intros <;> omega
  | succ depth inductionHypothesis =>
    cases bound with
    | zero =>
      constructor <;> intros <;> (rename_i lt; exact absurd lt (Nat.not_lt_zero _))
    | succ bound =>
      -- A parser goes on either with the same tokens, or with fewer of them.
      have here := inductionHypothesis (bound + 1)
      have behind := inductionHypothesis bound
      exact {
        expression := fun floor le _ lt => here.expression_succ floor (by omega) lt
        extend := fun floor left le _ lt => behind.extend_succ floor left (by omega) lt
        continued := fun left follow le _ lt => here.continued_succ left follow (by omega) lt
        operand := fun le _ lt => behind.operand_succ (by omega) lt
        grouped := fun le _ lt => here.grouped_succ (by omega) lt
        conditional := fun le _ lt => behind.conditional_succ (by omega) lt
        otherwise := fun le _ lt => behind.otherwise_succ (by omega) lt
        functionLiteral := fun le _ lt => behind.functionLiteral_succ (by omega) lt
        listing := fun close le _ lt => here.listing_succ close (by omega) lt
        items := fun close le _ lt => here.items_succ behind close (by omega) lt
        pairs := fun le _ lt => here.pairs_succ behind (by omega) lt
        statement := fun le _ lt => here.statement_succ (by omega) lt
        block := fun le _ lt => here.block_succ behind (by omega) lt }

/-- Reading a program is tracked and leaves no tokens. -/
theorem traced_program {depth bound : Nat} (le : 8 * bound + 4 ≤ depth) {tokens : List Token}
    (lt : tokens.length < bound) :
    Tracks (program depth tokens)
      (Parser.ofDraft (fun tokens => (Parser.program depth tokens, [])) tokens)
      Block.statementCount 0 tokens := by
  induction depth generalizing bound tokens with
  | zero => omega
  | succ depth inductionHypothesis =>
    cases tokens with
    | nil => exact .done (Nat.le_refl _)
    | cons token rest =>
      obtain ⟨bound, rfl⟩ : ∃ n, bound = n + 1 := ⟨bound - 1, by omega⟩
      have first := (traced depth (bound + 1)).statement (by omega) (token :: rest) lt
      rw [Parser.ofDraft, Parser.program_cons]
      refine .attempt_bind (program depth) (fun tokens => (Parser.program depth tokens, []))
        (by rw [List.length_cons] at lt ⊢; omega) first fun remaining le => ?_
      exact inductionHypothesis (by omega) (Nat.lt_of_le_of_lt le (Nat.lt_of_succ_lt_succ lt))

end Tracer

/-- Reading a source comes to the end of its tokens. Every attempt at a statement on
the way begins at another token and ends as reading a statement there does. It records one
diagnostic of its own if there is no statement in the end, and none if there is one. These
are all diagnostics. So there are none if and only if every attempt gave a statement, and
there are no more diagnostics and statements, at all depths, than tokens. -/
theorem Draft.accounts_for_attempts (source : String) :
    ∃ run, Tracer.program (Parser.sufficientDepth (Token.ofSource source).length)
        (Token.ofSource source) = some run ∧
      run.result = some (Draft.ofSource source).statements ∧ run.rest = [] ∧
      run.log.errors = (Draft.ofSource source).diagnostics ∧
      run.log.own = [] ∧ run.log.errors = run.log.attempts.flatMap Attempt.own ∧
      (run.log.attempts.map Attempt.start).Nodup ∧
      (∀ attempt ∈ run.log.attempts, attempt.start ≠ [] ∧
        attempt.start <:+ Token.ofSource source ∧ attempt.Genuine ∧
        attempt.own.length = if attempt.result.isNone then 1 else 0) ∧
      (run.log.errors = [] ↔ ∀ attempt ∈ run.log.attempts, attempt.result ≠ none) ∧
      run.log.errors.length + Block.statementCount (Draft.ofSource source).statements ≤
        (Token.ofSource source).length := by
  have deep : 8 * ((Token.ofSource source).length + 1) + 4 ≤
      Parser.sufficientDepth (Token.ofSource source).length := by
    unfold Parser.sufficientDepth
    omega
  rcases Tracer.traced_program deep (Nat.lt_succ_self _) with ⟨run, ran, same, accounts⟩
  have ended : run.log.errors = (Draft.ofSource source).diagnostics ∧ run.log.own = [] ∧
      run.result = some (Draft.ofSource source).statements ∧ run.rest = [] := same.of_ok
  rcases ended with ⟨errors, nothing, result, rest⟩
  have owned : run.log.errors = run.log.attempts.flatMap Attempt.own := by
    rw [accounts.errors, nothing, List.append_nil]
  have balanced : ∀ attempt ∈ run.log.attempts, attempt.Balanced := by
    intro attempt member
    exact (accounts.genuine attempt member).balanced
  refine ⟨run, ran, result, rest, errors, nothing, owned, accounts.distinct,
    fun attempt member => ?_, ?_, ?_⟩
  · have start := accounts.starts attempt member
    exact ⟨List.ne_nil_of_length_pos (Nat.zero_lt_of_lt start.2), start.1,
      accounts.genuine attempt member, balanced attempt member⟩
  · rw [owned]
    exact flatMap_own_eq_nil_iff balanced
  · have size := accounts.size _ result
    have length := accounts.length
    have total := length_own_add_readCount balanced
    rw [owned]
    omega

end Monkey
