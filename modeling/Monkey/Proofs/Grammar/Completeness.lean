import Monkey.Proofs.Grammar.Levels

/-!
# Everything the grammar derives is read

The parsers read the tree of every derivation, provided that nothing behind the
phrase belongs to it as well: no operator that binds more tightly than the
layer of an expression, and no second branch of a condition.
-/

namespace Monkey

namespace Parser

variable {input middle rest : List Token}

/-! ## What a reading begins with -/

/-- Tokens that end something. -/
def closers : List Token :=
  [.keyword .otherwise, .symbol .rightParen, .symbol .rightBracket, .symbol .rightBrace]

/-- Keywords that begin statements. -/
def starters : List Token := [.keyword .bind, .keyword .return]

theorem head?_ne_of_reads_operand {token : Token} (foreign : token ∈ closers ++ starters)
    {value : Expr} (reads : Reads (limit operand) input value rest) :
    input.head? ≠ some token := by
  intro head
  rcases List.head?_eq_some_iff.mp head with ⟨behind, rfl⟩
  simp only [closers, starters, List.cons_append, List.nil_append, List.mem_cons,
    List.not_mem_nil, or_false] at foreign
  rcases foreign with rfl | rfl | rfl | rfl | rfl | rfl <;> exact reads_operand_cons_iff.mp reads

/-- No expression begins with a token that ends something or begins another
statement. -/
theorem head?_ne_of_reads_expression {token : Token} (foreign : token ∈ closers ++ starters)
    {floor : Level} {value : Expr} (reads : Reads (limit (expression · floor)) input value rest) :
    input.head? ≠ some token := by
  rcases reads_expression_iff.mp reads with ⟨left, middle, first, -⟩
  exact head?_ne_of_reads_operand foreign first

theorem ne_nil_of_reads_expression {floor : Level} {value : Expr}
    (reads : Reads (limit (expression · floor)) input value rest) : input ≠ [] := by
  rcases reads_expression_iff.mp reads with ⟨left, middle, first, -⟩
  rintro rfl
  exact not_reads_operand_nil first

theorem head?_ne_of_reads_statement {token : Token} (closes : token ∈ closers) {first : Stmt}
    (reads : Reads (limit statement) input first rest) : input.head? ≠ some token := by
  intro head
  have notStarter : ∀ starter ∈ starters, input.head? ≠ some starter := by
    intro starter member same
    rw [head, Option.some.injEq] at same
    subst same
    revert closes member
    simp only [closers, starters, List.mem_cons, List.not_mem_nil, or_false]
    rintro (rfl | rfl | rfl | rfl) <;> simp
  have statement := (reads_statement_of_head?_ne_iff (notStarter _ (.head _))
    (notStarter _ (.tail _ (.head _)))).mp reads
  rcases reads_ending_iff.mp statement with ⟨value, middle, expression, -⟩
  exact head?_ne_of_reads_expression (List.mem_append_left _ closes) expression head

theorem ne_nil_of_reads_statement {first : Stmt}
    (reads : Reads (limit statement) input first rest) : input ≠ [] := by
  rintro rfl
  obtain ⟨value, middle, expression, -⟩ :=
    reads_ending_iff.mp ((reads_statement_of_head?_ne_iff (by simp) (by simp)).mp reads)
  exact ne_nil_of_reads_expression expression rfl

/-- An expression begins no other statement. -/
theorem reads_statement_of_reads_ending {first : Stmt}
    (reads : Reads (ending .expr) input first rest) : Reads (limit statement) input first rest := by
  rcases reads_ending_iff.mp reads with ⟨value, middle, expression, -⟩
  exact (reads_statement_of_head?_ne_iff
    (head?_ne_of_reads_expression (by simp [starters]) expression)
    (head?_ne_of_reads_expression (by simp [starters]) expression)).mpr reads

/-- A block that was read begins with no second branch. -/
theorem head?_ne_otherwise_of_limitBlock {body : Block}
    (block : limitBlock input = (⟨body, []⟩, rest)) :
    input.head? ≠ some (.keyword .otherwise) := by
  rcases limitBlock_eq_iff.mp block with ⟨rfl, -⟩ | ⟨rfl, -⟩ | ⟨-, -, first, middle, -, reads, -⟩
  · simp
  · simp
  · exact head?_ne_of_reads_statement (by simp [closers]) reads

/-! ## Passing through an expression -/

/-- On the way of reading an expression the value was read and the rest is
left, which decides how the reading goes on. -/
def Passes (floor : Level) (input : List Token) (value : Expr) (rest : List Token) : Prop :=
  ∀ ⦃result last⦄, Reads (limit (extend · floor value)) rest result last →
    Reads (limit (expression · floor)) input result last

namespace Passes

variable {floor : Level}

/-- A reading ends where its expression does. -/
theorem reads {value : Expr} (passes : Passes floor input value rest)
    (stops : Stops floor rest) : Reads (limit (expression · floor)) input value rest :=
  passes ((reads_extend_of_stops_iff stops).mpr ⟨rfl, rfl⟩)

theorem of_operand {value : Expr} (operand : Reads (limit operand) input value rest) :
    Passes floor input value rest :=
  fun _ _ extended => reads_expression_iff.mpr ⟨value, rest, operand, extended⟩

theorem continued {left longer : Expr} {token : Token} {follow : Follow}
    (passes : Passes floor input left (token :: middle))
    (announces : token.follow? = some follow) (lt : floor < follow.level)
    (reads : Reads (limit (continued · left follow)) middle longer rest) :
    Passes floor input longer rest :=
  fun _ _ extended =>
    passes ((reads_extend_of_lt_iff announces lt).mpr ⟨longer, rest, reads, extended⟩)

theorem binary {left right : Expr} {op : BinaryOp}
    (passes : Passes floor input left (.symbol op.mark :: middle)) (lt : floor < op.level)
    (reads : Reads (limit (expression · op.level)) middle right rest) :
    Passes floor input (.binary left op right) rest :=
  passes.continued op.follow?_mark lt (reads_continued_binary_iff.mpr ⟨right, reads, rfl⟩)

theorem call {callee : Expr} {arguments : List Expr}
    (passes : Passes floor input callee (.symbol .leftParen :: middle)) (lt : floor < .suffix)
    (reads : Reads (limit (listing · .rightParen)) middle arguments rest) :
    Passes floor input (.call callee arguments) rest :=
  passes.continued rfl lt (reads_continued_call_iff.mpr ⟨arguments, reads, rfl⟩)

theorem index {left position : Expr}
    (passes : Passes floor input left (.symbol .leftBracket :: middle)) (lt : floor < .suffix)
    (reads : Reads (limit (expression · .lowest)) middle position
      (.symbol .rightBracket :: rest)) :
    Passes floor input (.index left position) rest :=
  passes.continued rfl lt (reads_continued_index_iff.mpr ⟨position, reads, rfl⟩)

end Passes

theorem reads_operand_unary (op : UnaryOp) {value : Expr}
    (reads : Reads (limit (expression · .unary)) input value rest) :
    Reads (limit operand) (.symbol op.mark :: input) (.unary op value) rest := by
  cases op <;> exact reads_operand_cons_iff.mpr ⟨value, reads, rfl⟩

end Parser

namespace Grammar

open Monkey.Parser

variable {input middle rest : List Token}

theorem Ends.of_terminator (terminator : Terminator middle rest)
    (notOtherwise : rest.head? ≠ some (.keyword .otherwise)) {level : Level} :
    Ends level middle := by
  cases terminator with
  | semicolon => exact .of_symbol rfl
  | omitted unfollowed =>
    exact ⟨stops_of_noneNext fun mark member => unfollowed mark (.tail _ member), notOtherwise⟩

/-- An expression is read in front of a symbol that announces no continuation. -/
theorem reads_of_passes {mark : Symbol} (none : mark.follow? = none) {value : Expr}
    (passes : Ends .equality (.symbol mark :: rest) →
      Passes .lowest input value (.symbol mark :: rest)) :
    Reads (limit (expression · .lowest)) input value (.symbol mark :: rest) :=
  (passes (.of_symbol none)).reads (Ends.of_symbol none).stops

/-- A statement is read from its expression on. -/
theorem reads_ending {build : Expr → Stmt} {value : Expr}
    (passes : Ends .equality middle → Passes .lowest input value middle)
    (terminator : Terminator middle rest)
    (notOtherwise : rest.head? ≠ some (.keyword .otherwise)) :
    Reads (ending build) input (build value) rest := by
  have ends {level : Level} : Ends level middle := .of_terminator terminator notOtherwise
  refine reads_ending_iff.mpr ⟨value, middle, (passes ends).reads ends.stops, ?_, rfl⟩
  cases terminator with
  | semicolon => exact .inr rfl
  | omitted unfollowed => exact .inl ⟨unfollowed _ (.head _), rfl⟩

/-- The rest of a block is the end of the input, or the closing brace in front
of what is left. -/
def Closed (rest last : List Token) : Prop :=
  (rest = [] ∧ last = []) ∨ rest = .symbol .rightBrace :: last

mutual

theorem Expression.passes {layer : Layer} {input rest : List Token} {value : Expr} :
    Expression layer input value rest → Ends layer.level rest →
      ∀ {floor : Level}, floor < layer.ceiling → Passes floor input value rest
  | .operand inner, ends, _, below =>
      inner.passes (ends.mono layer.level_le_next)
        (Nat.lt_of_lt_of_le below layer.ceiling_le_next)
  | .binary member left right, ends, _, below => by
      rcases level_of_mem_operators member with ⟨level, ceiling⟩
      have leftPasses := left.passes (level ▸ Ends.of_mark _) below
      refine leftPasses.binary (by rw [level, ← ceiling]; exact below) ?_
      rw [level]
      exact (right.passes (ends.mono layer.level_le_next) layer.level_lt_ceiling_next).reads
        ends.stops
  | .unary operand, ends, _, _ =>
      .of_operand (reads_operand_unary _ ((operand.passes ends (by decide)).reads ends.stops))
  | .chain chain _, ends, _, below => chain.passes ends.notOtherwise below

theorem Chain.passes {input rest : List Token} {value : Expr} :
    Chain input value rest → rest.head? ≠ some (.keyword .otherwise) →
      ∀ {floor : Level}, floor < .suffix → Passes floor input value rest
  | .primary primary, notOtherwise, _, _ => .of_operand (primary.reads notOtherwise)
  | .call function listing, _, _, below =>
      (function.passes (by simp) below).call below (listing.reads (.inl rfl))
  | .index indexed index, _, _, below =>
      (indexed.passes (by simp) below).index below
        (reads_of_passes rfl fun ends => index.passes ends (by decide))

theorem Primary.reads {input rest : List Token} {value : Expr} :
    Primary input value rest → rest.head? ≠ some (.keyword .otherwise) →
      Reads (limit operand) input value rest
  | .ident, _ => reads_operand_cons_iff.mpr ⟨rfl, rfl⟩
  | .int bounded, _ => reads_operand_cons_iff.mpr (reads_integer_iff.mpr ⟨bounded, rfl, rfl⟩)
  | .string, _ => reads_operand_cons_iff.mpr ⟨rfl, rfl⟩
  | .true, _ => reads_operand_cons_iff.mpr ⟨rfl, rfl⟩
  | .false, _ => reads_operand_cons_iff.mpr ⟨rfl, rfl⟩
  | .group inner, _ =>
      reads_operand_cons_iff.mpr (reads_grouped_iff.mpr
        (reads_of_passes rfl fun ends => inner.passes ends (by decide)))
  | .cond test first, notOtherwise => by
      have condition := reads_of_passes rfl fun ends => test.passes ends (by decide)
      rcases first.reads with ⟨behind, rfl, body⟩
      have absent := (reads_otherwise_of_head?_ne_iff notOtherwise).mpr ⟨rfl, rfl⟩
      exact reads_operand_cons_iff.mpr (reads_conditional_iff.mpr
        ⟨_, _, _, _, _, _, rfl, reads_grouped_iff.mpr condition, body, absent, rfl⟩)
  | .otherwise test first second, _ => by
      have condition := reads_of_passes rfl fun ends => test.passes ends (by decide)
      rcases first.reads with ⟨behind, rfl, body⟩
      rcases second.reads with ⟨last, rfl, other⟩
      have present := reads_otherwise_cons_iff.mpr ⟨last, _, rfl, other, rfl⟩
      exact reads_operand_cons_iff.mpr (reads_conditional_iff.mpr
        ⟨_, _, _, _, _, _, rfl, reads_grouped_iff.mpr condition, body, present, rfl⟩)
  | .function parameters block, _ => by
      rcases block.reads with ⟨behind, rfl, body⟩
      exact reads_operand_cons_iff.mpr (reads_functionLiteral_iff.mpr
        ⟨_, _, _, _, rfl, reads_parameters_iff.mpr parameters, body, rfl⟩)
  | .array listing, _ => reads_operand_cons_iff.mpr ⟨_, listing.reads (.inr rfl), rfl⟩
  | .hash pairs, _ => reads_operand_cons_iff.mpr ⟨_, pairs.reads, rfl⟩

theorem Listing.reads {close : Symbol} {input rest : List Token} {values : List Expr} :
    Listing close input values rest → close = .rightParen ∨ close = .rightBracket →
      Reads (limit (listing · close)) input values rest
  | .empty, _ => reads_listing_iff.mpr (.inr ⟨rfl, rfl⟩)
  | .items items, closes => by
      have reads := items.reads closes
      rcases reads_items_iff.mp reads with ⟨value, middle, first, -⟩
      have member : .symbol close ∈ closers := by
        rcases closes with rfl | rfl <;> simp [closers]
      exact reads_listing_iff.mpr
        (.inl ⟨head?_ne_of_reads_expression (List.mem_append_left _ member) first, reads⟩)

theorem Items.reads {close : Symbol} {input rest : List Token} {values : List Expr} :
    Items close input values rest → close = .rightParen ∨ close = .rightBracket →
      Reads (limit (items · close)) input values rest
  | .last item, closes => by
      have none : close.follow? = none := by rcases closes with rfl | rfl <;> rfl
      have ne : close ≠ .comma := by rcases closes with rfl | rfl <;> decide
      have reads := reads_of_passes none fun ends => item.passes ends (by decide)
      exact reads_items_iff.mpr ⟨_, _, reads, .inl ⟨by simp [ne], rfl, rfl⟩⟩
  | .more item others, closes => by
      have reads := reads_of_passes rfl fun ends => item.passes ends (by decide)
      exact reads_items_iff.mpr ⟨_, _, reads, .inr ⟨_, rfl, _, others.reads closes, rfl⟩⟩

theorem Pairs.reads {input rest : List Token} {entries : List (Expr × Expr)} :
    Pairs input entries rest → Reads (limit pairs) input entries rest
  | .empty => reads_pairs_iff.mpr (.inr ⟨rfl, rfl⟩)
  | .last left right => by
      have key := reads_of_passes rfl fun ends => left.passes ends (by decide)
      have value := reads_of_passes rfl fun ends => right.passes ends (by decide)
      have foreign : Token.symbol .rightBrace ∈ closers ++ starters := by simp [closers]
      have opened := head?_ne_of_reads_expression foreign key
      exact reads_pairs_iff.mpr (.inl ⟨opened, _, _, key, _, _, value, .inr ⟨rfl, rfl⟩⟩)
  | .more left right others => by
      have key := reads_of_passes rfl fun ends => left.passes ends (by decide)
      have value := reads_of_passes rfl fun ends => right.passes ends (by decide)
      have foreign : Token.symbol .rightBrace ∈ closers ++ starters := by simp [closers]
      have opened := head?_ne_of_reads_expression foreign key
      exact reads_pairs_iff.mpr (.inl
        ⟨opened, _, _, key, _, _, value, .inl ⟨by simp, _, rfl, _, others.reads, rfl⟩⟩)

theorem Block.reads {input rest : List Token} {body : List Stmt} :
    Block input body rest →
      ∃ behind, input = .symbol .leftBrace :: behind ∧ limitBlock behind = (⟨body, []⟩, rest)
  | .closed statements => ⟨_, rfl, statements.reads (.inr rfl)⟩
  | .unclosed statements => ⟨_, rfl, statements.reads (.inl ⟨rfl, rfl⟩)⟩

theorem Statement.reads {input rest : List Token} {statement : Stmt} :
    Statement input statement rest → rest.head? ≠ some (.keyword .otherwise) →
      Reads (limit Parser.statement) input statement rest
  | .bind expression terminator, notOtherwise =>
      reads_statement_bind_iff.mpr ⟨_, _, rfl,
        reads_ending (fun ends => expression.passes ends (by decide)) terminator notOtherwise⟩
  | .return expression terminator, notOtherwise =>
      reads_statement_return_iff.mpr
        (reads_ending (fun ends => expression.passes ends (by decide)) terminator notOtherwise)
  | .expr expression terminator, notOtherwise =>
      reads_statement_of_reads_ending
        (reads_ending (fun ends => expression.passes ends (by decide)) terminator notOtherwise)

theorem Statements.reads {input rest last : List Token} {body : List Stmt} :
    Statements input body rest → Closed rest last → limitBlock input = (⟨body, []⟩, last)
  | .nil, closed => by
      rcases closed with ⟨rfl, rfl⟩ | rfl
      · exact limitBlock_nil
      · exact limitBlock_rightBrace _
  | .cons statement following, closed => by
      have later := following.reads closed
      have first := statement.reads (head?_ne_otherwise_of_limitBlock later)
      exact limitBlock_eq_iff.mpr (.inr (.inr ⟨ne_nil_of_reads_statement first,
        head?_ne_of_reads_statement (by simp [closers]) first, _, _, _, first, later, rfl⟩))

end

end Grammar

end Monkey
