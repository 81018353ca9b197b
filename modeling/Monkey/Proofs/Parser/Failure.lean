import Monkey.Proofs.Grammar.Completeness

/-!
# Readings that fail

A parser fails if it ends with a diagnostic before any statement was dropped. It
fails with the first of its parts that does, as long as the parts in front of
this one read their values. Tokens on which reading is stuck fail for one
numeral among them, whatever stands behind them.
-/

namespace Monkey.Parser

variable {α β : Type} {tokens middle : List Token} {diagnostic : Diagnostic}

/-- The parser ends with the diagnostic, and no statement was dropped before. -/
def Fails (parser : Parser α) (tokens : List Token) (diagnostic : Diagnostic) : Prop :=
  ∃ rest, parser tokens = ⟨[], .error diagnostic, rest⟩

theorem Fails.bind {parser : Parser α} (fails : Fails parser tokens diagnostic)
    (next : α → Parser β) : Fails (parser >>= next) tokens diagnostic :=
  fails.imp fun _ failed => bind_apply_of_error failed

theorem Fails.map {parser : Parser α} (fails : Fails parser tokens diagnostic) (f : α → β) :
    ∃ rest, (parser tokens).map f = ⟨[], .error diagnostic, rest⟩ := by
  rcases fails with ⟨rest, failed⟩
  exact ⟨rest, by rw [failed]; rfl⟩

/-- A parser fails if a part of it does, behind parts that read their values. -/
theorem Reads.bind_fails {parser : Parser α} {next : α → Parser β} {value : α}
    (reads : Reads parser tokens value middle) (fails : Fails (next value) middle diagnostic) :
    Fails (parser >>= next) tokens diagnostic := by
  rcases fails with ⟨rest, failed⟩
  exact ⟨rest, by rw [bind_apply_of_ok reads, failed]; rfl⟩

theorem reads_expect_cons (mark : Symbol) (rest : List Token) :
    Reads (expect mark) (.symbol mark :: rest) () rest :=
  reads_expect_iff.mpr rfl

theorem Fails.unique {parser : Parser α} {other : Diagnostic}
    (fails : Fails parser tokens diagnostic) (also : Fails parser tokens other) :
    diagnostic = other := by
  rcases fails with ⟨rest, failed⟩
  rcases also with ⟨last, same⟩
  rw [failed] at same
  cases same
  rfl

theorem Fails.expression (fails : Fails (limit operand) tokens diagnostic) (floor : Level) :
    Fails (limit (Parser.expression · floor)) tokens diagnostic := by
  rw [limit_expression]
  exact fails.bind _

/-- No operand begins with a token that ends something or begins another
statement. -/
theorem fails_operand_of_foreign {token : Token} (foreign : token ∈ closers ++ starters)
    (rest : List Token) : Fails (limit operand) (token :: rest) (.noExpression token.kind) := by
  refine ⟨rest, ?_⟩
  rw [limit_operand_cons]
  simp only [closers, starters, List.cons_append, List.nil_append, List.mem_cons,
    List.not_mem_nil, or_false] at foreign
  rcases foreign with rfl | rfl | rfl | rfl | rfl | rfl <;> rfl

section Numerals

variable {digits : String} {floor : Level} {next : Expr → Parser α}

/-- If a numeral is the fault, an expression was begun. -/
theorem head?_ne_of_fails
    (fails : Fails (limit (expression · floor) >>= next) tokens (.invalidInteger digits))
    {token : Token} (foreign : token ∈ closers ++ starters) : tokens.head? ≠ some token := by
  intro head
  rcases List.head?_eq_some_iff.mp head with ⟨rest, rfl⟩
  cases fails.unique (((fails_operand_of_foreign foreign rest).expression floor).bind next)

theorem ne_nil_of_fails
    (fails : Fails (limit (expression · floor) >>= next) tokens (.invalidInteger digits)) :
    tokens ≠ [] := by
  rintro rfl
  have none : Fails (limit operand) [] (.noExpression .endOfInput) := ⟨[], rfl⟩
  cases fails.unique ((none.expression floor).bind next)

/-- What fails because of a numeral does so also where it might have been absent. -/
theorem Fails.unless {close : Symbol} (closes : .symbol close ∈ closers) {absent : Parser α}
    (fails : Fails (limit (Parser.expression · floor) >>= next) tokens
      (.invalidInteger digits)) :
    Fails (accept close >>= fun closed =>
      if closed then absent else limit (Parser.expression · floor) >>= next)
      tokens (.invalidInteger digits) := by
  have ne := head?_ne_of_fails fails (List.mem_append_left _ closes)
  exact Reads.bind_fails (accept_of_head?_ne ne) fails

end Numerals

/-! ## Numerals that are too great -/

/-- Reading comes upon a numeral that is too great, whatever is behind the
tokens. -/
def Stuck (digits : String) (tokens : List Token) : Prop :=
  ∀ rest, Fails (limit operand) (tokens ++ rest) (.invalidInteger digits)

section Stuck

variable {digits : String}

theorem stuck_numeral (great : 2 ^ 63 - 1 < Text.Decimal.read digits.toList) :
    Stuck digits [.int digits] := by
  intro rest
  have notLe : ¬ Text.Decimal.read digits.toList ≤ greatestNumeral := Nat.not_le_of_lt great
  refine ⟨rest, ?_⟩
  rw [List.singleton_append, limit_operand_cons]
  simp only [integer, notLe, if_false]
  rfl

theorem Stuck.unary (stuck : Stuck digits tokens) (op : UnaryOp) :
    Stuck digits (.symbol op.mark :: tokens) := by
  intro rest
  rcases ((stuck rest).expression .unary).map (Expr.unary op) with ⟨last, failed⟩
  refine ⟨last, ?_⟩
  rw [List.cons_append, limit_operand_cons]
  cases op <;> exact failed

theorem stuck_array (fails : ∀ rest, Fails (limit (listing · .rightBracket)) (tokens ++ rest)
    (.invalidInteger digits)) : Stuck digits (.symbol .leftBracket :: tokens) := by
  intro rest
  simpa only [Fails, List.cons_append, limit_operand_cons] using (fails rest).map Expr.array

theorem stuck_hash (fails : ∀ rest, Fails (limit pairs) (tokens ++ rest)
    (.invalidInteger digits)) : Stuck digits (.symbol .leftBrace :: tokens) := by
  intro rest
  simpa only [Fails, List.cons_append, limit_operand_cons] using (fails rest).map Expr.hash

/-- The numeral is what the first diagnostic of a draft is about. -/
theorem Stuck.diagnostics_ofTokens (stuck : Stuck digits tokens) :
    ∃ later, (Draft.ofTokens tokens).diagnostics = .invalidInteger digits :: later := by
  have fails := ((stuck []).expression .lowest).bind fun value =>
    accept .semicolon >>= fun _ => pure (Stmt.expr value)
  rw [List.append_nil] at fails
  have unstarted : limit statement tokens = ending .expr tokens :=
    limit_statement_of_head?_ne (head?_ne_of_fails fails (by simp [starters]))
      (head?_ne_of_fails fails (by simp [starters]))
  rcases List.exists_cons_of_ne_nil (ne_nil_of_fails fails) with ⟨token, behind, rfl⟩
  rcases fails with ⟨rest, failed⟩
  rw [Draft.ofTokens_cons_limit, Draft.diagnostics_append, attempt_eq_attempt unstarted]
  simp only [attempt, ending, failed, List.nil_append, List.singleton_append]
  exact ⟨_, rfl⟩

end Stuck

end Monkey.Parser
