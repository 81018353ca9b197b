import Mathlib.Logic.Function.Iterate
import Monkey.Proofs.Grammar.Completeness

/-!
# Everything that is read is derived by the grammar

Whatever the parsers read without a diagnostic has a derivation. A reading of
an expression keeps the layer to which the expression read so far belongs, and
nothing in front binds more tightly than that layer. With the derivations of
the other direction the programs that are read are exactly the sentences of the
grammar.
-/

namespace Monkey.Grammar

open Monkey.Parser

variable {input middle rest : List Token}

/-! ## Layers of what was read -/

/-- The layer of an operator. -/
def layerOf : BinaryOp → Layer
  | .equal | .notEqual => .equality
  | .less | .greater => .comparison
  | .add | .subtract => .sum
  | .multiply | .divide => .product

theorem mem_operators_layerOf (op : BinaryOp) : op ∈ (layerOf op).operators := by
  cases op <;> simp [layerOf, Layer.operators]

/-- The layer of the expressions that are read above a level. -/
def Layer.above : Level → Layer
  | .lowest => .equality
  | .equality => .comparison
  | .comparison => .sum
  | .sum => .product
  | .product | .unary | .suffix => .unary

theorem above_level (op : BinaryOp) : Layer.above op.level = (layerOf op).next := by
  cases op <;> rfl

theorem level_above_le_of_lt {floor level : Level} (lt : floor < level) :
    (Layer.above floor).level ≤ level := by
  cases floor <;> cases level <;> first | decide | exact absurd lt (by decide)

theorem level_above_le_unary (floor : Level) : (Layer.above floor).level ≤ .unary := by
  cases floor <;> decide

theorem iterate_next {weak strong : Layer} (le : weak.level ≤ strong.level) :
    Layer.next^[strong.level.rank - weak.level.rank] weak = strong := by
  cases weak <;> cases strong <;> first | rfl | exact absurd le (by decide)

/-- An expression of a layer belongs to every weaker one. -/
theorem Expression.weaken {strong weak : Layer} {value : Expr}
    (derived : Expression strong input value rest) (le : weak.level ≤ strong.level) :
    Expression weak input value rest := by
  rw [← iterate_next le] at derived
  generalize strong.level.rank - weak.level.rank = distance at derived
  clear le
  induction distance generalizing weak with
  | zero => exact derived
  | succ distance inductionHypothesis => exact .operand (inductionHypothesis derived)

theorem Layer.equality_level_le (layer : Layer) : Layer.equality.level ≤ layer.level := by
  cases layer <;> decide

theorem Layer.level_le_unary (layer : Layer) : layer.level ≤ Layer.unary.level := by
  cases layer <;> decide

/-- A chain is an operand of every operator unless a call or an indexing comes
next. -/
theorem Chain.expression {value : Expr} (chain : Chain input value rest)
    (longest : NoneNext suffixOpeners rest) (layer : Layer) : Expression layer input value rest :=
  (Expression.chain chain longest).weaken layer.level_le_unary

/-- The derivations of an expression that was read so far, by the level with
which it binds. -/
def AtLevel : Level → List Token → Expr → List Token → Prop
  | .lowest | .equality => Expression .equality
  | .comparison => Expression .comparison
  | .sum => Expression .sum
  | .product => Expression .product
  | .unary => Expression .unary
  | .suffix => Chain

/-- What binds with a level belongs to every layer that is not tighter, unless
a call or an indexing comes next. -/
theorem AtLevel.weaken {level : Level} {layer : Layer} {value : Expr}
    (derived : AtLevel level input value rest) (le : layer.level ≤ level)
    (longest : NoneNext suffixOpeners rest) : Expression layer input value rest := by
  cases level with
  | lowest => exact absurd le (by cases layer <;> decide)
  | equality => exact Expression.weaken derived le
  | comparison => exact Expression.weaken derived le
  | sum => exact Expression.weaken derived le
  | product => exact Expression.weaken derived le
  | unary => exact Expression.weaken derived le
  | suffix => exact Chain.expression derived longest layer

theorem AtLevel.of_layerOf {op : BinaryOp} {value : Expr}
    (derived : Expression (layerOf op) input value rest) : AtLevel op.level input value rest := by
  cases op <;> exact derived

/-! ## Readings and derivations -/

/-- What is read of fewer than `bound` tokens is derived. -/
structure Sound (bound : Nat) : Prop where
  expression : ∀ {floor input value rest}, floor < .suffix → input.length < bound →
    Reads (limit (expression · floor)) input value rest →
      Expression (Layer.above floor) input value rest ∧ Stops floor rest
  extend : ∀ {floor level tokens input left value rest}, floor < .suffix →
    tokens.length < bound → AtLevel level input left tokens →
    (Layer.above floor).level ≤ level → Stops level tokens →
    Reads (limit (extend · floor left)) tokens value rest →
      Expression (Layer.above floor) input value rest ∧ Stops floor rest
  grouped : ∀ {input value rest}, input.length < bound →
    Reads (limit grouped) input value rest →
      Expression .equality input value (.symbol .rightParen :: rest)
  conditional : ∀ {input value rest}, input.length < bound →
    Reads (limit conditional) input value rest → Primary (.keyword .cond :: input) value rest
  functionLiteral : ∀ {input value rest}, input.length < bound →
    Reads (limit functionLiteral) input value rest →
      Primary (.keyword .function :: input) value rest
  listing : ∀ {close input values rest}, input.length < bound →
    Reads (limit (listing · close)) input values rest → Listing close input values rest
  items : ∀ {close input values rest}, input.length < bound →
    Reads (limit (items · close)) input values rest → Items close input values rest
  pairs : ∀ {input entries rest}, input.length < bound →
    Reads (limit pairs) input entries rest → Pairs input entries rest
  statement : ∀ {input first rest}, input.length < bound →
    Reads (limit statement) input first rest → Statement input first rest
  block : ∀ {input body last}, input.length < bound →
    limitBlock input = (⟨body, []⟩, last) →
      ∃ rest, Statements input body rest ∧ Closed rest last

namespace Sound

variable {bound : Nat}

/-- An operand is a call or an indexing or less, or a unary operator with its
operand. -/
theorem operand (sound : Sound bound) {value : Expr} (short : input.length < bound + 1)
    (reads : Reads (limit Parser.operand) input value rest) :
    ∃ level : Level, .unary ≤ level ∧ AtLevel level input value rest ∧ Stops level rest := by
  have primary (derived : Primary input value rest) :
      ∃ level : Level, .unary ≤ level ∧ AtLevel level input value rest ∧ Stops level rest :=
    ⟨.suffix, by decide, .primary derived, stops_suffix⟩
  have unary (op : UnaryOp) {behind : List Token} {inner : Expr}
      (short : behind.length < bound)
      (reads : Reads (limit (Parser.expression · .unary)) behind inner rest) :
      ∃ level : Level, .unary ≤ level ∧
        AtLevel level (.symbol op.mark :: behind) (.unary op inner) rest ∧ Stops level rest := by
    rcases sound.expression (by decide) short reads with ⟨derived, stops⟩
    exact ⟨.unary, by decide, Expression.unary derived, stops⟩
  cases input with
  | nil => exact absurd reads not_reads_operand_nil
  | cons token behind =>
    have shorter : behind.length < bound := Nat.lt_of_succ_lt_succ short
    have read := reads_operand_cons_iff.mp reads
    rcases token with _ | _ | _ | _ | mark | word
    case illegal => exact absurd read id
    case ident =>
      rcases read with ⟨rfl, rfl⟩
      exact primary .ident
    case int =>
      rcases reads_integer_iff.mp read with ⟨bounded, rfl, rfl⟩
      exact primary (.int bounded)
    case string =>
      rcases read with ⟨rfl, rfl⟩
      exact primary .string
    case symbol =>
      cases mark
      case bang =>
        rcases read with ⟨inner, operand, rfl⟩
        exact unary .not shorter operand
      case minus =>
        rcases read with ⟨inner, operand, rfl⟩
        exact unary .negate shorter operand
      case leftParen => exact primary (.group (sound.grouped shorter read))
      case leftBracket =>
        rcases read with ⟨elements, listing, rfl⟩
        exact primary (.array (sound.listing shorter listing))
      case leftBrace =>
        rcases read with ⟨entries, pairs, rfl⟩
        exact primary (.hash (sound.pairs shorter pairs))
      all_goals exact absurd read id
    case keyword =>
      cases word
      case true =>
        rcases read with ⟨rfl, rfl⟩
        exact primary .true
      case false =>
        rcases read with ⟨rfl, rfl⟩
        exact primary .false
      case cond => exact primary (sound.conditional shorter read)
      case function => exact primary (sound.functionLiteral shorter read)
      all_goals exact absurd read id

/-- What was read so far stops where nothing above the floor comes next. -/
theorem stop {floor level : Level} {value : Expr} (below : floor < .suffix)
    (derived : AtLevel level input value rest) (le : (Layer.above floor).level ≤ level)
    (stops : Stops floor rest) :
    Expression (Layer.above floor) input value rest ∧ Stops floor rest := by
  have unaryStops : Stops .unary rest := stops.mono (Nat.le_of_lt_succ below)
  exact ⟨derived.weaken le (stops_unary_iff.mp unaryStops), stops⟩

/-- A continuation makes a longer expression, at the level of the
continuation. -/
theorem continued (sound : Sound bound) {level : Level} {token : Token} {follow : Follow}
    {left longer : Expr} (short : middle.length < bound)
    (announces : token.follow? = some follow) (derived : AtLevel level input left (token :: middle))
    (stops : Stops level (token :: middle))
    (reads : Reads (limit (Parser.continued · left follow)) middle longer rest) :
    AtLevel follow.level input longer rest ∧ Stops follow.level rest := by
  have le : follow.level ≤ level := Nat.le_of_not_lt (stops token rfl follow announces)
  have chain (tight : follow.level = .suffix) : Chain input left (token :: middle) := by
    rw [tight] at le
    cases level with
    | suffix => exact derived
    | _ => exact absurd le (by decide)
  obtain rfl := eq_mark_of_follow? announces
  cases follow with
  | binary op =>
    rcases reads_continued_binary_iff.mp reads with ⟨right, rightReads, rfl⟩
    have below : op.level < .suffix := by cases op <;> decide
    rcases sound.expression below short rightReads with ⟨rightDerived, rightStops⟩
    rw [above_level] at rightDerived
    have weak : (layerOf op).level ≤ level := by
      rw [← (level_of_mem_operators (mem_operators_layerOf op)).1]
      exact le
    have noSuffix : NoneNext suffixOpeners (.symbol op.mark :: middle) := by
      cases op <;> simp [NoneNext, suffixOpeners, BinaryOp.mark]
    have leftDerived := derived.weaken weak noSuffix
    exact ⟨.of_layerOf (.binary (mem_operators_layerOf op) leftDerived rightDerived), rightStops⟩
  | call =>
    rcases reads_continued_call_iff.mp reads with ⟨arguments, listing, rfl⟩
    exact ⟨.call (chain rfl) (sound.listing short listing), stops_suffix⟩
  | index =>
    rcases reads_continued_index_iff.mp reads with ⟨position, index, rfl⟩
    exact ⟨.index (chain rfl) (sound.expression (by decide) short index).1, stops_suffix⟩

theorem extend_succ (sound : Sound bound) {floor level : Level} {tokens : List Token}
    {left value : Expr} (below : floor < .suffix) (short : tokens.length < bound + 1)
    (derived : AtLevel level input left tokens) (le : (Layer.above floor).level ≤ level)
    (stops : Stops level tokens)
    (reads : Reads (limit (Parser.extend · floor left)) tokens value rest) :
    Expression (Layer.above floor) input value rest ∧ Stops floor rest := by
  by_cases ends : Stops floor tokens
  · rcases (reads_extend_of_stops_iff ends).mp reads with ⟨rfl, rfl⟩
    exact stop below derived le ends
  · simp only [Stops, not_forall, not_not] at ends
    rcases ends with ⟨token, head, follow, announces, lt⟩
    rcases List.head?_eq_some_iff.mp head with ⟨behind, rfl⟩
    obtain ⟨longer, middle, continued, extended⟩ :=
      (reads_extend_of_lt_iff announces lt).mp reads
    have behindShort : behind.length < bound := Nat.lt_of_succ_lt_succ short
    have middleShort : middle.length < bound :=
      Nat.lt_of_le_of_lt
        (continued.length_le (shrinks_limit fun depth => (shrinking depth).continued left follow))
        behindShort
    obtain ⟨longerDerived, longerStops⟩ :=
      sound.continued behindShort announces derived stops continued
    exact sound.extend below middleShort longerDerived (level_above_le_of_lt lt) longerStops
      extended

theorem expression_succ (sound : Sound bound) {floor : Level} {value : Expr}
    (below : floor < .suffix) (short : input.length < bound + 1)
    (reads : Reads (limit (Parser.expression · floor)) input value rest) :
    Expression (Layer.above floor) input value rest ∧ Stops floor rest := by
  rcases reads_expression_iff.mp reads with ⟨left, middle, operand, extended⟩
  have middleShort : middle.length < bound :=
    Nat.lt_of_lt_of_le operand.length_lt_of_operand (Nat.le_of_lt_succ short)
  rcases sound.operand short operand with ⟨level, tight, derived, stops⟩
  have le : (Layer.above floor).level ≤ level := Nat.le_trans (level_above_le_unary floor) tight
  exact sound.extend below middleShort derived le stops extended

theorem grouped_succ (sound : Sound bound) {value : Expr} (short : input.length < bound + 1)
    (reads : Reads (limit Parser.grouped) input value rest) :
    Expression .equality input value (.symbol .rightParen :: rest) :=
  (sound.expression_succ (by decide) short (reads_grouped_iff.mp reads)).1

theorem block_of_closed {body : List Stmt} {last : List Token}
    (statements : Statements input body rest) (closed : Closed rest last) :
    Block (.symbol .leftBrace :: input) body last := by
  rcases closed with ⟨rfl, rfl⟩ | rfl
  · exact .unclosed statements
  · exact .closed statements

theorem conditional_succ (sound : Sound bound) {value : Expr} (short : input.length < bound + 1)
    (reads : Reads (limit Parser.conditional) input value rest) :
    Primary (.keyword .cond :: input) value rest := by
  obtain ⟨behind, condition, middle, first, last, second, rfl, test, body, branch, rfl⟩ :=
    reads_conditional_iff.mp reads
  have behindShort : behind.length < bound := Nat.lt_of_succ_lt_succ short
  have testDerived := sound.grouped behindShort test
  have middleLe := test.length_le (shrinks_limit fun depth => (shrinking depth).grouped)
  have middleShort : middle.length < bound :=
    Nat.lt_of_le_of_lt (Nat.le_of_succ_le middleLe) behindShort
  rcases sound.block middleShort body with ⟨left, statements, closed⟩
  have firstDerived := block_of_closed statements closed
  by_cases present : last.head? = some (.keyword .otherwise)
  · rcases List.head?_eq_some_iff.mp present with ⟨tail, rfl⟩
    rcases reads_otherwise_cons_iff.mp branch with ⟨opened, alternative, rfl, otherBody, rfl⟩
    have openedShort : opened.length < bound := by
      have lastLe := length_le_of_limitBlock body
      simp only [List.length_cons] at lastLe
      omega
    rcases sound.block openedShort otherBody with ⟨otherLeft, others, otherClosed⟩
    exact .otherwise testDerived firstDerived (block_of_closed others otherClosed)
  · rcases (reads_otherwise_of_head?_ne_iff present).mp branch with ⟨rfl, rfl⟩
    exact .cond testDerived firstDerived

theorem functionLiteral_succ (sound : Sound bound) {value : Expr}
    (short : input.length < bound + 1)
    (reads : Reads (limit Parser.functionLiteral) input value rest) :
    Primary (.keyword .function :: input) value rest := by
  obtain ⟨behind, names, middle, body, rfl, parameters, block, rfl⟩ :=
    reads_functionLiteral_iff.mp reads
  have behindShort : behind.length < bound := Nat.lt_of_succ_lt_succ short
  have middleLe := parameters.length_le shrinks_parameters
  have middleShort : middle.length < bound :=
    Nat.lt_of_le_of_lt (Nat.le_of_succ_le middleLe) behindShort
  rcases sound.block middleShort block with ⟨left, statements, closed⟩
  exact .function (reads_parameters_iff.mp parameters) (block_of_closed statements closed)

theorem items_succ (sound : Sound bound) {close : Symbol} {values : List Expr}
    (short : input.length < bound + 1)
    (reads : Reads (limit (Parser.items · close)) input values rest) :
    Items close input values rest := by
  rcases reads_items_iff.mp reads with ⟨value, middle, first, last⟩
  have item := (sound.expression_succ (by decide) short first).1
  rcases last with ⟨-, rfl, rfl⟩ | ⟨behind, rfl, others, more, rfl⟩
  · exact .last item
  · have shorter := first.length_lt_of_expression
    have behindShort : behind.length < bound := by
      simp only [List.length_cons] at shorter
      omega
    exact .more item (sound.items behindShort more)

theorem listing_succ (sound : Sound bound) {close : Symbol} {values : List Expr}
    (short : input.length < bound + 1)
    (reads : Reads (limit (Parser.listing · close)) input values rest) :
    Listing close input values rest := by
  rcases reads_listing_iff.mp reads with ⟨-, items⟩ | ⟨rfl, rfl⟩
  · exact .items (sound.items_succ short items)
  · exact .empty

theorem pairs_succ (sound : Sound bound) {entries : List (Expr × Expr)}
    (short : input.length < bound + 1) (reads : Reads (limit Parser.pairs) input entries rest) :
    Pairs input entries rest := by
  rcases reads_pairs_iff.mp reads with
    ⟨-, key, behind, left, value, middle, right, last⟩ | ⟨rfl, rfl⟩
  · have keyDerived := (sound.expression_succ (by decide) short left).1
    have behindShorter := left.length_lt_of_expression
    simp only [List.length_cons] at behindShorter
    have behindShort : behind.length < bound + 1 := by omega
    have valueDerived := (sound.expression_succ (by decide) behindShort right).1
    rcases last with ⟨-, tail, rfl, others, more, rfl⟩ | ⟨rfl, rfl⟩
    · have tailShorter := right.length_lt_of_expression
      simp only [List.length_cons] at tailShorter
      have tailShort : tail.length < bound := by omega
      exact .more keyDerived valueDerived (sound.pairs tailShort more)
    · exact .last keyDerived valueDerived
  · exact .empty

/-- A statement ends behind its semicolon, or where its expression stops. -/
theorem ending_succ (sound : Sound bound) {build : Expr → Stmt} {statement : Stmt}
    (short : input.length < bound + 1) (reads : Reads (ending build) input statement rest) :
    ∃ value middle, Expression .equality input value middle ∧ Terminator middle rest ∧
      statement = build value := by
  rcases reads_ending_iff.mp reads with ⟨value, middle, expression, last, rfl⟩
  rcases sound.expression_succ (by decide) short expression with ⟨derived, stops⟩
  refine ⟨value, middle, derived, ?_, rfl⟩
  rcases last with ⟨noSemicolon, rfl⟩ | rfl
  · exact .omitted (noneNext_of_stops_lowest stops noSemicolon)
  · exact .semicolon

theorem statement_succ (sound : Sound bound) {first : Stmt} (short : input.length < bound + 1)
    (reads : Reads (limit Parser.statement) input first rest) : Statement input first rest := by
  by_cases isBind : input.head? = some (.keyword .bind)
  · rcases List.head?_eq_some_iff.mp isBind with ⟨tail, rfl⟩
    rcases reads_statement_bind_iff.mp reads with ⟨name, behind, rfl, ending⟩
    simp only [List.length_cons] at short
    rcases sound.ending_succ (by omega) ending with ⟨value, middle, derived, terminator, rfl⟩
    exact .bind derived terminator
  · by_cases isReturn : input.head? = some (.keyword .return)
    · rcases List.head?_eq_some_iff.mp isReturn with ⟨tail, rfl⟩
      have ending := reads_statement_return_iff.mp reads
      obtain ⟨value, middle, derived, terminator, rfl⟩ :=
        sound.ending_succ (Nat.lt_of_succ_lt short) ending
      exact .return derived terminator
    · have ending := (reads_statement_of_head?_ne_iff isBind isReturn).mp reads
      rcases sound.ending_succ short ending with ⟨value, middle, derived, terminator, rfl⟩
      exact .expr derived terminator

theorem block_succ (sound : Sound bound) {body : Monkey.Block} {last : List Token}
    (short : input.length < bound + 1) (block : limitBlock input = (⟨body, []⟩, last)) :
    ∃ rest, Statements input body rest ∧ Closed rest last := by
  rcases limitBlock_eq_iff.mp block with
    ⟨rfl, rfl, rfl⟩ | ⟨rfl, rfl⟩ | ⟨-, -, first, middle, others, reads, later, rfl⟩
  · exact ⟨[], .nil, .inl ⟨rfl, rfl⟩⟩
  · exact ⟨_, .nil, .inr rfl⟩
  · have middleShort : middle.length < bound :=
      Nat.lt_of_lt_of_le reads.length_lt_of_statement (Nat.le_of_lt_succ short)
    rcases sound.block middleShort later with ⟨rest, statements, closed⟩
    exact ⟨rest, .cons (sound.statement_succ short reads) statements, closed⟩

end Sound

/-- Whatever is read is derived. -/
theorem sound (bound : Nat) : Sound bound := by
  induction bound with
  | zero =>
    constructor
    all_goals
      intros
      exact absurd ‹_ < 0› (Nat.not_lt_zero _)
  | succ bound inductionHypothesis =>
    exact
      { expression := inductionHypothesis.expression_succ
        extend := inductionHypothesis.extend_succ
        grouped := inductionHypothesis.grouped_succ
        conditional := inductionHypothesis.conditional_succ
        functionLiteral := inductionHypothesis.functionLiteral_succ
        listing := inductionHypothesis.listing_succ
        items := inductionHypothesis.items_succ
        pairs := inductionHypothesis.pairs_succ
        statement := inductionHypothesis.statement_succ
        block := inductionHypothesis.block_succ }

/-! ## Programs -/

theorem statements_of_ofTokens {tokens : List Token} {program : Program}
    (read : Draft.ofTokens tokens = ⟨program, []⟩) : Statements tokens program [] := by
  induction program generalizing tokens with
  | nil =>
    rcases Draft.ofTokens_eq_iff.mp read with ⟨rfl, -⟩ | ⟨-, first, middle, others, -, -, eq⟩
    · exact .nil
    · cases eq
  | cons statement program inductionHypothesis =>
    rcases Draft.ofTokens_eq_iff.mp read with ⟨-, eq⟩ | ⟨-, first, middle, others, reads, later, eq⟩
    · cases eq
    · cases eq
      exact .cons ((sound _).statement (Nat.lt_succ_self _) reads) (inductionHypothesis later)

/-- No program begins with a token that ends something. -/
theorem head?_ne_otherwise_of_ofTokens {tokens : List Token} {program : Program}
    (read : Draft.ofTokens tokens = ⟨program, []⟩) :
    tokens.head? ≠ some (.keyword .otherwise) := by
  rcases Draft.ofTokens_eq_iff.mp read with ⟨rfl, -⟩ | ⟨-, first, middle, others, reads, -⟩
  · simp
  · exact head?_ne_of_reads_statement (by simp [closers]) reads

theorem ofTokens_of_statements {tokens : List Token} {program : Program}
    (derived : Statements tokens program []) : Draft.ofTokens tokens = ⟨program, []⟩ := by
  induction program generalizing tokens with
  | nil =>
    cases derived
    exact Draft.ofTokens_eq_iff.mpr (.inl ⟨rfl, rfl⟩)
  | cons statement program inductionHypothesis =>
    rcases derived with _ | ⟨first, following⟩
    have later := inductionHypothesis following
    have reads := first.reads (head?_ne_otherwise_of_ofTokens later)
    exact Draft.ofTokens_eq_iff.mpr
      (.inr ⟨ne_nil_of_reads_statement reads, statement, _, program, reads, later, rfl⟩)

/-- The tokens that are read without a diagnostic are the sentences. -/
theorem ofTokens_eq_iff_sentence {tokens : List Token} {program : Program} :
    Draft.ofTokens tokens = ⟨program, []⟩ ↔ Sentence tokens program :=
  ⟨statements_of_ofTokens, ofTokens_of_statements⟩

/-- The grammar is unambiguous. -/
theorem Sentence.unique {tokens : List Token} {program other : Program}
    (sentence : Sentence tokens program) (same : Sentence tokens other) : program = other := by
  have read := ofTokens_eq_iff_sentence.mpr sentence
  rw [ofTokens_eq_iff_sentence.mpr same] at read
  exact congrArg Draft.statements read.symm

end Monkey.Grammar

namespace Monkey

/-- A source is read as a program without a diagnostic exactly if the tokens of
the source form that program. -/
theorem Draft.ofSource_eq_iff_sentence (source : String) (program : Program) :
    Draft.ofSource source = ⟨program, []⟩ ↔ Grammar.Sentence (Token.ofSource source) program :=
  Grammar.ofTokens_eq_iff_sentence

end Monkey
