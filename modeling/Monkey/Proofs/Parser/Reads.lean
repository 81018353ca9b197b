import Mathlib.Algebra.Group.Nat.Defs
import Mathlib.Tactic.Simproc.ExistsAndEq
import Monkey.Proofs.Parser.Limit

/-!
# Readings without diagnostics

A parser reads a value if it ends with it and no statement was dropped on the
way. For every parser of a program this is the case exactly if its parts read
their values one behind the other.
-/

namespace Monkey.Parser

variable {α β : Type}

/-- The parser ends with a value, and no statement was dropped. -/
def Reads (parser : Parser α) (tokens : List Token) (value : α) (rest : List Token) : Prop :=
  parser tokens = ⟨[], .ok value, rest⟩

variable {tokens rest : List Token}

@[simp]
theorem reads_done_iff {value result : α} :
    Reads (done value) tokens result rest ↔ result = value ∧ rest = tokens := by
  simp [Reads, done, eq_comm]

@[simp]
theorem reads_pure_iff {value result : α} :
    Reads (pure value) tokens result rest ↔ result = value ∧ rest = tokens :=
  reads_done_iff

@[simp]
theorem not_reads_fail {diagnostic : Diagnostic} {value : α} :
    ¬ Reads (fail diagnostic) tokens value rest := by
  simp [Reads, fail]

@[simp]
theorem not_reads_unexpected {kind : Token.Kind} {value : α} :
    ¬ Reads (unexpected kind) tokens value rest :=
  not_reads_fail

/-- One parser behind another reads what both read. -/
@[simp]
theorem reads_bind_iff {parser : Parser α} {next : α → Parser β} {result : β} :
    Reads (parser >>= next) tokens result rest ↔
      ∃ value middle, Reads parser tokens value middle ∧ Reads (next value) middle result rest := by
  unfold Reads
  rcases parsed : parser tokens with ⟨diagnostics, outcome | value, middle⟩
  · simp [bind_apply_of_error parsed]
  · rw [bind_apply_of_ok parsed]
    rcases later : next value middle with ⟨dropped, outcome, last⟩
    constructor
    · intro eq
      simp only [Parsed.mk.injEq, List.append_eq_nil_iff] at eq
      rcases eq with ⟨⟨rfl, rfl⟩, rfl, rfl⟩
      exact ⟨value, middle, rfl, later⟩
    · rintro ⟨_, _, eq, read⟩
      cases eq
      rw [later] at read
      cases read
      rfl

/-- What a parser reads can be changed afterwards. -/
theorem map_eq_iff {parser : Parser α} {f : α → β} {result : β} :
    (parser tokens).map f = ⟨[], .ok result, rest⟩ ↔
      ∃ value, Reads parser tokens value rest ∧ result = f value := by
  unfold Reads
  rcases parser tokens with ⟨diagnostics, outcome | value, middle⟩
  · simp [Parsed.map, Except.map]
  · simp only [Parsed.map, Except.map, Parsed.mk.injEq, Except.ok.injEq]
    constructor
    · rintro ⟨rfl, rfl, rfl⟩
      exact ⟨value, ⟨rfl, rfl, rfl⟩, rfl⟩
    · rintro ⟨_, ⟨rfl, rfl, rfl⟩, rfl⟩
      exact ⟨rfl, rfl, rfl⟩

@[simp]
theorem reads_expect_iff {mark : Symbol} {value : Unit} :
    Reads (expect mark) tokens value rest ↔ tokens = .symbol mark :: rest := by
  unfold Reads expect
  split
  · next found behind =>
    by_cases same : found = mark
    · simp [same, done]
    · simp [same, unexpected, fail]
  · next other =>
    constructor
    · intro read
      exact absurd read not_reads_unexpected
    · intro eq
      exact absurd eq (other _ _)

@[simp]
theorem reads_identifier_iff {name : String} :
    Reads identifier tokens name rest ↔ tokens = .ident name :: rest := by
  unfold Reads identifier
  split
  · simp [done]
  · next other =>
    constructor
    · intro read
      exact absurd read not_reads_unexpected
    · intro eq
      exact absurd eq (other _ _)

theorem accept_cons_self (mark : Symbol) (rest : List Token) :
    accept mark (.symbol mark :: rest) = ⟨[], .ok true, rest⟩ := by
  simp [accept, done]

theorem accept_of_head?_ne {mark : Symbol} (ne : tokens.head? ≠ some (.symbol mark)) :
    accept mark tokens = ⟨[], .ok false, tokens⟩ := by
  unfold accept
  split
  · next found behind =>
    have differs : found ≠ mark := fun same => ne (same ▸ rfl)
    simp [differs, done]
  · rfl

/-- An accepted symbol was there, and a symbol that was not accepted was not. -/
@[simp]
theorem reads_accept_iff {mark : Symbol} {accepted : Bool} :
    Reads (accept mark) tokens accepted rest ↔
      (accepted = true ∧ tokens = .symbol mark :: rest) ∨
        (accepted = false ∧ tokens.head? ≠ some (.symbol mark) ∧ rest = tokens) := by
  unfold Reads
  by_cases there : tokens.head? = some (.symbol mark)
  · rcases List.head?_eq_some_iff.mp there with ⟨behind, rfl⟩
    simp [accept_cons_self, eq_comm]
  · have absent : tokens ≠ .symbol mark :: rest := by
      rintro rfl
      exact there rfl
    simp [accept_of_head?_ne there, there, absent, eq_comm]

theorem reads_integer_iff {digits : String} {value : Expr} :
    Reads (integer digits) tokens value rest ↔
      Text.Decimal.read digits.toList ≤ 2 ^ 63 - 1 ∧
        value = .int (Int64.ofNat (Text.Decimal.read digits.toList)) ∧ rest = tokens := by
  by_cases bounded : Text.Decimal.read digits.toList ≤ greatestNumeral
  · have le : Text.Decimal.read digits.toList ≤ 2 ^ 63 - 1 := bounded
    simp only [Reads, integer, bounded, if_true, le, true_and]
    exact reads_done_iff
  · have notLe : ¬ Text.Decimal.read digits.toList ≤ 2 ^ 63 - 1 := bounded
    simp only [Reads, integer, bounded, if_false, notLe, false_and, iff_false]
    exact not_reads_fail

/-! ## Fewer tokens are left -/

/-- No reading leaves more tokens than it was given. -/
theorem Reads.length_le {parser : Parser α} (shrinks : Shrinks parser) {value : α}
    (reads : Reads parser tokens value rest) : rest.length ≤ tokens.length := by
  have le := shrinks tokens
  rwa [show parser tokens = _ from reads] at le

/-! ## Attempts at a statement -/

theorem attempt_of_reads {parser : Parser Stmt} {statement : Stmt}
    (reads : Reads parser tokens statement rest) :
    attempt parser tokens = (⟨[statement], []⟩, rest) := by
  simp only [attempt, show parser tokens = _ from reads]

/-- A statement was read unless the attempt left a diagnostic. -/
theorem exists_reads_of_attempt {parser : Parser Stmt}
    (clean : (attempt parser tokens).1.diagnostics = []) :
    ∃ statement rest, Reads parser tokens statement rest ∧
      attempt parser tokens = (⟨[statement], []⟩, rest) := by
  rcases parsed : parser tokens with ⟨diagnostics, outcome | statement, rest⟩
  · simp [attempt, parsed] at clean
  · simp only [attempt, parsed] at clean
    subst clean
    exact ⟨statement, rest, parsed, attempt_of_reads parsed⟩

/-! ## The parsers of a program -/

theorem reads_expression_iff {floor : Level} {value : Expr} :
    Reads (limit (expression · floor)) tokens value rest ↔
      ∃ left middle, Reads (limit operand) tokens left middle ∧
        Reads (limit (extend · floor left)) middle value rest := by
  simp [limit_expression]

theorem reads_extend_of_lt_iff {floor : Level} {token : Token} {follow : Follow}
    (announces : token.follow? = some follow) (lt : floor < follow.level) {left value : Expr} :
    Reads (limit (extend · floor left)) (token :: tokens) value rest ↔
      ∃ longer middle, Reads (limit (continued · left follow)) tokens longer middle ∧
        Reads (limit (extend · floor longer)) middle value rest := by
  rw [← reads_bind_iff]
  unfold Reads
  rw [limit_extend_of_lt announces lt]

theorem reads_extend_of_stops_iff {floor : Level} (stops : Stops floor tokens)
    {left value : Expr} :
    Reads (limit (extend · floor left)) tokens value rest ↔ value = left ∧ rest = tokens := by
  rw [← reads_done_iff]
  unfold Reads
  rw [limit_extend_of_stops stops]

theorem reads_continued_binary_iff {left value : Expr} {op : BinaryOp} :
    Reads (limit (continued · left (.binary op))) tokens value rest ↔
      ∃ right, Reads (limit (expression · op.level)) tokens right rest ∧
        value = .binary left op right := by
  simp [limit_continued_binary]

theorem reads_continued_call_iff {left value : Expr} :
    Reads (limit (continued · left .call)) tokens value rest ↔
      ∃ arguments, Reads (limit (listing · .rightParen)) tokens arguments rest ∧
        value = .call left arguments := by
  simp [limit_continued_call]

theorem reads_continued_index_iff {left value : Expr} :
    Reads (limit (continued · left .index)) tokens value rest ↔
      ∃ position, Reads (limit (expression · .lowest)) tokens position
          (.symbol .rightBracket :: rest) ∧ value = .index left position := by
  simp [limit_continued_index]

theorem not_reads_operand_nil {value : Expr} : ¬ Reads (limit operand) [] value rest :=
  not_reads_fail

/-- The first token of an operand decides how it is read. -/
theorem reads_operand_cons_iff {token : Token} {value : Expr} :
    Reads (limit operand) (token :: tokens) value rest ↔
      match token with
      | .ident name => value = .ident name ∧ rest = tokens
      | .int digits => Reads (integer digits) tokens value rest
      | .string text => value = .string text ∧ rest = tokens
      | .keyword .true => value = .bool true ∧ rest = tokens
      | .keyword .false => value = .bool false ∧ rest = tokens
      | .symbol .bang =>
          ∃ operand, Reads (limit (expression · .unary)) tokens operand rest ∧
            value = .unary .not operand
      | .symbol .minus =>
          ∃ operand, Reads (limit (expression · .unary)) tokens operand rest ∧
            value = .unary .negate operand
      | .symbol .leftParen => Reads (limit grouped) tokens value rest
      | .keyword .cond => Reads (limit conditional) tokens value rest
      | .keyword .function => Reads (limit functionLiteral) tokens value rest
      | .symbol .leftBracket =>
          ∃ elements, Reads (limit (listing · .rightBracket)) tokens elements rest ∧
            value = .array elements
      | .symbol .leftBrace =>
          ∃ entries, Reads (limit pairs) tokens entries rest ∧ value = .hash entries
      | _ => False := by
  have unfolded : Reads (limit operand) (token :: tokens) value rest ↔
      limit operand (token :: tokens) = ⟨[], .ok value, rest⟩ := Iff.rfl
  rw [unfolded, limit_operand_cons]
  rcases token with _ | _ | _ | _ | mark | word
  case illegal => exact iff_false_intro not_reads_fail
  case ident | string => exact reads_done_iff
  case int => exact Iff.rfl
  case symbol =>
    cases mark
    case bang | minus | leftBracket | leftBrace => exact map_eq_iff
    case leftParen => exact Iff.rfl
    all_goals exact iff_false_intro not_reads_fail
  case keyword =>
    cases word
    case true | false => exact reads_done_iff
    case cond | function => exact Iff.rfl
    all_goals exact iff_false_intro not_reads_fail

theorem reads_grouped_iff {value : Expr} :
    Reads (limit grouped) tokens value rest ↔
      Reads (limit (expression · .lowest)) tokens value (.symbol .rightParen :: rest) := by
  simp [limit_grouped]

theorem reads_block_iff {body : Block} :
    Reads (limit fun depth => ofDraft (block depth)) tokens body rest ↔
      limitBlock tokens = (⟨body, []⟩, rest) := by
  rw [limit_ofDraft_block]
  rcases read : limitBlock tokens with ⟨⟨statements, diagnostics⟩, last⟩
  simp only [Reads, ofDraft, read, Parsed.mk.injEq, Except.ok.injEq, Prod.mk.injEq,
    Draft.mk.injEq]
  constructor
  · rintro ⟨dropped, same, last⟩
    exact ⟨⟨same, dropped⟩, last⟩
  · rintro ⟨⟨same, dropped⟩, last⟩
    exact ⟨dropped, same, last⟩

theorem reads_conditional_iff {value : Expr} :
    Reads (limit conditional) tokens value rest ↔
      ∃ behind condition middle first last second,
        tokens = .symbol .leftParen :: behind ∧
        Reads (limit grouped) behind condition (.symbol .leftBrace :: middle) ∧
        limitBlock middle = (⟨first, []⟩, last) ∧ Reads (limit otherwise) last second rest ∧
        value = .cond condition first second := by
  simp [limit_conditional, reads_block_iff]

theorem reads_otherwise_cons_iff {alternative : Option Block} :
    Reads (limit otherwise) (.keyword .otherwise :: tokens) alternative rest ↔
      ∃ behind body, tokens = .symbol .leftBrace :: behind ∧
        limitBlock behind = (⟨body, []⟩, rest) ∧ alternative = some body := by
  unfold Reads
  rw [limit_otherwise_cons]
  change Reads _ _ _ _ ↔ _
  simp [reads_block_iff]

theorem reads_otherwise_of_head?_ne_iff {alternative : Option Block}
    (ne : tokens.head? ≠ some (.keyword .otherwise)) :
    Reads (limit otherwise) tokens alternative rest ↔ alternative = none ∧ rest = tokens := by
  rw [← reads_done_iff]
  unfold Reads
  rw [limit_otherwise_of_head?_ne ne]

theorem reads_functionLiteral_iff {value : Expr} :
    Reads (limit functionLiteral) tokens value rest ↔
      ∃ behind names middle body,
        tokens = .symbol .leftParen :: behind ∧
        Reads parameters behind names (.symbol .leftBrace :: middle) ∧
        limitBlock middle = (⟨body, []⟩, rest) ∧ value = .function names body := by
  simp [limit_functionLiteral, reads_block_iff]

theorem reads_listing_iff {close : Symbol} {values : List Expr} :
    Reads (limit (listing · close)) tokens values rest ↔
      (tokens.head? ≠ some (.symbol close) ∧
          Reads (limit (items · close)) tokens values rest) ∨
        (tokens = .symbol close :: rest ∧ values = []) := by
  simp [limit_listing]

theorem reads_items_iff {close : Symbol} {values : List Expr} :
    Reads (limit (items · close)) tokens values rest ↔
      ∃ value middle, Reads (limit (expression · .lowest)) tokens value middle ∧
        ((middle.head? ≠ some (.symbol .comma) ∧ middle = .symbol close :: rest ∧
            values = [value]) ∨
          ∃ behind, middle = .symbol .comma :: behind ∧
            ∃ others, Reads (limit (items · close)) behind others rest ∧
              values = value :: others) := by
  conv => lhs; rw [limit_items]
  simp

theorem reads_pairs_iff {entries : List (Expr × Expr)} :
    Reads (limit pairs) tokens entries rest ↔
      (tokens.head? ≠ some (.symbol .rightBrace) ∧
        ∃ key behind,
          Reads (limit (expression · .lowest)) tokens key (.symbol .colon :: behind) ∧
          ∃ value middle, Reads (limit (expression · .lowest)) behind value middle ∧
            ((middle.head? ≠ some (.symbol .rightBrace) ∧
                ∃ last, middle = .symbol .comma :: last ∧
                  ∃ others, Reads (limit pairs) last others rest ∧
                    entries = (key, value) :: others) ∨
              (middle = .symbol .rightBrace :: rest ∧ entries = [(key, value)]))) ∨
        (tokens = .symbol .rightBrace :: rest ∧ entries = []) := by
  conv => lhs; rw [limit_pairs]
  simp

/-- A semicolon that comes next is taken. -/
theorem reads_ending_iff {build : Expr → Stmt} {statement : Stmt} :
    Reads (ending build) tokens statement rest ↔
      ∃ value middle, Reads (limit (expression · .lowest)) tokens value middle ∧
        ((middle.head? ≠ some (.symbol .semicolon) ∧ rest = middle) ∨
          middle = .symbol .semicolon :: rest) ∧
        statement = build value := by
  simp [ending]

theorem reads_statement_bind_iff {statement : Stmt} :
    Reads (limit Parser.statement) (.keyword .bind :: tokens) statement rest ↔
      ∃ name behind, tokens = .ident name :: .symbol .assign :: behind ∧
        Reads (ending (.bind name)) behind statement rest := by
  unfold Reads
  rw [limit_statement_bind]
  change Reads _ _ _ _ ↔ _
  simp
  rfl

theorem reads_statement_return_iff {statement : Stmt} :
    Reads (limit Parser.statement) (.keyword .return :: tokens) statement rest ↔
      Reads (ending .return) tokens statement rest := by
  unfold Reads
  rw [limit_statement_return]

theorem reads_statement_of_head?_ne_iff {statement : Stmt}
    (notBind : tokens.head? ≠ some (.keyword .bind))
    (notReturn : tokens.head? ≠ some (.keyword .return)) :
    Reads (limit Parser.statement) tokens statement rest ↔
      Reads (ending .expr) tokens statement rest := by
  unfold Reads
  rw [limit_statement_of_head?_ne notBind notReturn]

/-- A block that was read is over, or begins with a statement that was read. -/
theorem limitBlock_eq_iff {body : Block} :
    limitBlock tokens = (⟨body, []⟩, rest) ↔
      (tokens = [] ∧ body = [] ∧ rest = []) ∨
        (tokens = .symbol .rightBrace :: rest ∧ body = []) ∨
        (tokens ≠ [] ∧ tokens.head? ≠ some (.symbol .rightBrace) ∧
          ∃ first middle others, Reads (limit statement) tokens first middle ∧
            limitBlock middle = (⟨others, []⟩, rest) ∧ body = first :: others) := by
  cases tokens with
  | nil => simp [limitBlock_nil, Draft.empty]
  | cons token behind =>
    by_cases closes : token = .symbol .rightBrace
    · subst closes
      simp [limitBlock_rightBrace, Draft.empty, and_comm]
    · simp only [reduceCtorEq, false_and, List.cons.injEq, closes, false_or, ne_eq,
        not_false_eq_true, List.head?_cons, Option.some.injEq, true_and]
      rw [limitBlock_cons closes]
      constructor
      · intro eq
        rcases Prod.mk.inj eq with ⟨draft, rfl⟩
        have clean := congrArg Draft.diagnostics draft
        have statements := congrArg Draft.statements draft
        rw [Draft.diagnostics_append, List.append_eq_nil_iff] at clean
        rw [Draft.statements_append] at statements
        rcases exists_reads_of_attempt clean.1 with ⟨first, middle, reads, attempted⟩
        rw [attempted] at clean statements ⊢
        refine ⟨first, middle, (limitBlock middle).1.statements, reads, ?_, statements.symm⟩
        rw [← clean.2]
      · rintro ⟨first, middle, others, reads, later, rfl⟩
        rw [attempt_of_reads reads, later]
        rfl

theorem Reads.length_lt_of_operand {value : Expr}
    (reads : Reads (limit operand) tokens value rest) : rest.length < tokens.length := by
  cases tokens with
  | nil => exact absurd reads not_reads_operand_nil
  | cons token behind =>
    rcases exists_depth (token :: behind) with ⟨depth, eq, -⟩
    have shorter := length_operand_le depth token behind
    rw [← eq, show Parser.operand _ (token :: behind) = _ from reads] at shorter
    exact Nat.lt_succ_of_le shorter

theorem Reads.length_lt_of_expression {floor : Level} {value : Expr}
    (reads : Reads (limit (expression · floor)) tokens value rest) :
    rest.length < tokens.length := by
  rcases reads_expression_iff.mp reads with ⟨left, middle, operand, extended⟩
  have le := extended.length_le (shrinks_limit fun depth => (shrinking depth).extend floor left)
  exact Nat.lt_of_le_of_lt le operand.length_lt_of_operand

theorem length_le_of_limitBlock {body : Block} (block : limitBlock tokens = (⟨body, []⟩, rest)) :
    rest.length ≤ tokens.length :=
  (reads_block_iff.mpr block).length_le
    (shrinks_limit fun depth => .ofDraft (shrinking depth).block)

theorem Reads.length_lt_of_statement {first : Stmt}
    (reads : Reads (limit statement) tokens first rest) : rest.length < tokens.length := by
  have behind (build : Expr → Stmt) {tokens : List Token}
      (reads : Reads (ending build) tokens first rest) : rest.length < tokens.length := by
    rcases reads_ending_iff.mp reads with ⟨value, middle, expression, ⟨-, rfl⟩ | rfl, -⟩
    · exact expression.length_lt_of_expression
    · exact Nat.lt_of_succ_lt expression.length_lt_of_expression
  by_cases isBind : tokens.head? = some (.keyword .bind)
  · rcases List.head?_eq_some_iff.mp isBind with ⟨tail, rfl⟩
    rcases reads_statement_bind_iff.mp reads with ⟨name, last, rfl, ending⟩
    have lt := behind _ ending
    simp only [List.length_cons]
    omega
  · by_cases isReturn : tokens.head? = some (.keyword .return)
    · rcases List.head?_eq_some_iff.mp isReturn with ⟨tail, rfl⟩
      exact Nat.lt_succ_of_lt (behind _ (reads_statement_return_iff.mp reads))
    · exact behind _ ((reads_statement_of_head?_ne_iff isBind isReturn).mp reads)

end Monkey.Parser

namespace Monkey.Draft

open Monkey.Parser

/-- A statement that was read is the first of the draft. -/
theorem ofTokens_of_reads {tokens rest : List Token} {first : Stmt}
    (reads : Reads (limit statement) tokens first rest) :
    ofTokens tokens = ⟨[first], []⟩ ++ ofTokens rest := by
  cases tokens with
  | nil => exact absurd reads.length_lt_of_statement (Nat.not_lt_zero _)
  | cons token behind => rw [ofTokens_cons_limit, attempt_of_reads reads]

/-- A program that was read is empty, or begins with a statement that was
read. -/
theorem ofTokens_eq_iff {tokens : List Token} {program : Program} :
    ofTokens tokens = ⟨program, []⟩ ↔
      (tokens = [] ∧ program = []) ∨
        (tokens ≠ [] ∧ ∃ first middle others, Reads (limit statement) tokens first middle ∧
          ofTokens middle = ⟨others, []⟩ ∧ program = first :: others) := by
  cases tokens with
  | nil => simp [empty]
  | cons token behind =>
    simp only [reduceCtorEq, false_and, ne_eq, not_false_eq_true, true_and, false_or]
    rw [ofTokens_cons_limit]
    constructor
    · intro draft
      have clean := congrArg Draft.diagnostics draft
      have statements := congrArg Draft.statements draft
      rw [diagnostics_append, List.append_eq_nil_iff] at clean
      rw [statements_append] at statements
      rcases exists_reads_of_attempt clean.1 with ⟨first, middle, reads, attempted⟩
      rw [attempted] at clean statements
      refine ⟨first, middle, (ofTokens middle).statements, reads, ?_, statements.symm⟩
      rw [← clean.2]
    · rintro ⟨first, middle, others, reads, later, rfl⟩
      rw [attempt_of_reads reads, later]
      rfl

end Monkey.Draft
