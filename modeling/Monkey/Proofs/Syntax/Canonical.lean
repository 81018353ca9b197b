import Monkey.Proofs.Syntax.Series
import Monkey.Syntax.Printer

/-!
# Canonical texts read back

The text of a tree is not always read as that tree: strings have lost their
quotes in it, and blocks their braces. The text of a tree without these is. The
parentheses around every operator and its operands, and around every indexing,
make the text of an expression an operand of whatever stands around it.
-/

namespace Monkey

open Token Grammar

/-! ## Canonical trees -/

/-- Expressions without strings, conditions and functions, whose names can be
read and whose integers have no sign. -/
inductive Expr.Canonical : Expr → Prop
  | ident {name : String} (isName : IsName name) : Canonical (.ident name)
  | int {value : Int64} (nonnegative : 0 ≤ value.toInt) : Canonical (.int value)
  | bool (value : Bool) : Canonical (.bool value)
  | unary (op : UnaryOp) {operand : Expr} (inner : Canonical operand) :
      Canonical (.unary op operand)
  | binary (op : BinaryOp) {left right : Expr} (first : Canonical left)
      (second : Canonical right) : Canonical (.binary left op right)
  | call {callee : Expr} {arguments : List Expr} (function : Canonical callee)
      (values : ∀ argument ∈ arguments, Canonical argument) : Canonical (.call callee arguments)
  | array {elements : List Expr} (values : ∀ element ∈ elements, Canonical element) :
      Canonical (.array elements)
  | index {left position : Expr} (indexed : Canonical left) (index : Canonical position) :
      Canonical (.index left position)
  | hash {pairs : List (Expr × Expr)} (keys : ∀ pair ∈ pairs, Canonical pair.1)
      (values : ∀ pair ∈ pairs, Canonical pair.2) : Canonical (.hash pairs)

/-- Programs of bindings and returns. An expression may be the last statement,
since nothing separates it from a statement behind it. -/
inductive Program.Canonical : Program → Prop
  | nil : Canonical []
  | last {value : Expr} (expression : value.Canonical) : Canonical [.expr value]
  | bind {name : String} {value : Expr} {rest : Program} (isName : IsName name)
      (expression : value.Canonical) (others : Canonical rest) :
      Canonical (.bind name value :: rest)
  | return {value : Expr} {rest : Program} (expression : value.Canonical)
      (others : Canonical rest) : Canonical (.return value :: rest)

/-! ## Texts of expressions -/

theorem UnaryOp.spelling_mark (op : UnaryOp) : op.mark.spelling = op.spelling := by
  cases op <;> rfl

theorem BinaryOp.spelling_mark (op : BinaryOp) : op.mark.spelling = op.spelling := by
  cases op <;> rfl

/-- The text is that of the expression: its tokens form a chain, and it does not
run on into an operator in front of it. -/
structure Spells (text : List Char) (tokens : List Token) (value : Expr) : Prop where
  lexes : Lexes text tokens
  chain : ∀ rest, Chain (tokens ++ rest) value rest
  fresh : ∀ rest, (text ++ rest).head? ≠ some '='

namespace Spells

variable {text : List Char} {tokens : List Token} {value : Expr}

theorem stands (spells : Spells text tokens value) : Stands tokens value :=
  .of_chain spells.chain

/-- The tokens of a text that spells an expression are those that are read off
it. -/
theorem ofSource {text : String} (spell : ∃ tokens, Spells text.toList tokens value) :
    Spells text.toList (Token.ofSource text) value := by
  rcases spell with ⟨tokens, spells⟩
  have read : Token.ofSource text = tokens := spells.lexes.ofChars
  rwa [read]

/-- A text that spells an expression is read as that expression and nothing else. -/
theorem draft_ofSource {text : String} (spell : ∃ tokens, Spells text.toList tokens value) :
    Draft.ofSource text = ⟨[.expr value], []⟩ :=
  ofTokens_eq_iff_sentence.mpr (ofSource spell).stands.sentence

end Spells

theorem spells_ident {name : String} (isName : IsName name) :
    Spells (Expr.ident name).text.toList [.ident name] (.ident name) where
  lexes := .ident isName
  chain _ := .primary .ident
  fresh rest head := by
    rcases List.exists_cons_of_ne_nil isName.ne_nil with ⟨first, more, spelt⟩
    have letter := isName.letters first (spelt ▸ .head _)
    rw [Expr.text, spelt] at head
    cases head
    exact absurd letter (by decide)

theorem spells_bool (value : Bool) :
    ∃ tokens, Spells (Expr.bool value).text.toList tokens (.bool value) := by
  cases value with
  | true => exact ⟨_, .keyword .true, fun _ => .primary .true, fun _ head => by cases head⟩
  | false => exact ⟨_, .keyword .false, fun _ => .primary .false, fun _ head => by cases head⟩

theorem wellFormed_write (number : Nat) :
    WellFormed (.int (String.ofList (Text.Decimal.write number))) := by
  constructor
  · rw [String.toList_ofList]
    exact Nat.toDigits_ne_nil
  · intro c member
    rw [String.toList_ofList] at member
    exact Nat.isDigit_of_mem_toDigits (by decide) (by decide) member

theorem primary_write {number : Nat} (bounded : number ≤ 2 ^ 63 - 1) (rest : List Token) :
    Primary (.int (String.ofList (Text.Decimal.write number)) :: rest)
      (.int (Int64.ofNat number)) rest := by
  have read : Text.Decimal.read (String.ofList (Text.Decimal.write number)).toList = number := by
    rw [String.toList_ofList, Text.Decimal.read_write]
  conv => arg 2; rw [← read]
  exact .int (by rwa [read])

theorem spells_int {value : Int64} (nonnegative : 0 ≤ value.toInt) :
    ∃ tokens, Spells (Expr.int value).text.toList tokens (.int value) := by
  rcases Int.eq_ofNat_of_zero_le nonnegative with ⟨number, eq⟩
  have text : (Expr.int value).text = String.ofList (Text.Decimal.write number) := by
    rw [Expr.text, eq]
    rfl
  have same : value = Int64.ofNat number := by
    rw [← Int64.ofInt_eq_ofNat, ← eq, Int64.ofInt_toInt]
  have bounded : number ≤ 2 ^ 63 - 1 := by
    have lt := value.toInt_lt
    omega
  have formed := wellFormed_write number
  rw [text, same]
  refine ⟨_, .numeral formed, fun rest => .primary (primary_write bounded rest),
    fun rest head => ?_⟩
  rcases List.exists_cons_of_ne_nil formed.1 with ⟨first, more, spelt⟩
  have digit := formed.2 first (spelt ▸ .head _)
  rw [spelt] at head
  cases head
  exact absurd digit (by decide)

/-- Symbols that open brackets. -/
def openers : List Symbol := [.leftParen, .leftBracket, .leftBrace]

section Brackets

variable {text : List Char} {tokens : List Token} {value left right : Expr}

/-- An expression between brackets. -/
theorem Spells.enclosed (opening closing : Symbol) (opens : opening ∈ openers)
    (closes : closing ≠ .assign ∧ closing ≠ .bang) (lexes : Lexes text tokens)
    (chain : ∀ rest, Chain (.symbol opening :: (tokens ++ .symbol closing :: rest)) value rest) :
    Spells (opening.spelling.toList ++ (text ++ closing.spelling.toList))
      (.symbol opening :: (tokens ++ [.symbol closing])) value where
  lexes := by
    refine (lexes.closed closing closes).symbol opening ?_
    revert opens
    cases opening <;> decide
  chain rest := by
    rw [List.cons_append, List.append_assoc]
    exact chain rest
  fresh rest := by
    revert opens
    cases opening <;> simp [openers, Symbol.spelling]

/-- An expression between parentheses. -/
theorem Spells.grouped (lexes : Lexes text tokens)
    (derived : ∀ rest, Expression .equality (tokens ++ .symbol .rightParen :: rest) value
      (.symbol .rightParen :: rest)) :
    Spells (Symbol.leftParen.spelling.toList ++ (text ++ Symbol.rightParen.spelling.toList))
      (.symbol .leftParen :: (tokens ++ [.symbol .rightParen])) value :=
  .enclosed .leftParen .rightParen (by decide) (by decide) lexes fun rest =>
    .primary (.group (derived rest))

theorem spells_unary (op : UnaryOp) (inner : ∃ tokens, Spells left.text.toList tokens left) :
    ∃ tokens, Spells (Expr.unary op left).text.toList tokens (.unary op left) := by
  rcases inner with ⟨tokens, spells⟩
  have text : (Expr.unary op left).text.toList =
      Symbol.leftParen.spelling.toList ++
        ((op.mark.spelling.toList ++ left.text.toList) ++ Symbol.rightParen.spelling.toList) := by
    rw [UnaryOp.spelling_mark]
    simp [Expr.text, Symbol.spelling]
  rw [text]
  refine ⟨_, .grouped (spells.lexes.mark op.mark fun rest _ => spells.fresh rest) fun rest => ?_⟩
  have operand := spells.stands.expression .rightParen (by decide) .unary rest
  exact (Expression.unary operand).weaken (by decide)

theorem spells_binary (op : BinaryOp) (first : ∃ tokens, Spells left.text.toList tokens left)
    (second : ∃ tokens, Spells right.text.toList tokens right) :
    ∃ tokens, Spells (Expr.binary left op right).text.toList tokens (.binary left op right) := by
  rcases first with ⟨leftTokens, leftSpells⟩
  rcases second with ⟨rightTokens, rightSpells⟩
  have text : (Expr.binary left op right).text.toList =
      Symbol.leftParen.spelling.toList ++
        ((left.text.toList ++ (' ' :: (op.mark.spelling.toList ++ (' ' :: right.text.toList)))) ++
          Symbol.rightParen.spelling.toList) := by
    rw [BinaryOp.spelling_mark]
    simp [Expr.text, Symbol.spelling]
  have spaced : Lexes (' ' :: right.text.toList) rightTokens :=
    rightSpells.lexes.blank (by decide)
  have behind : Lexes (' ' :: (op.mark.spelling.toList ++ (' ' :: right.text.toList)))
      (.symbol op.mark :: rightTokens) :=
    (spaced.mark op.mark fun rest _ => by simp).blank (by decide)
  rw [text]
  refine ⟨_, .grouped (leftSpells.lexes.append behind (.cons (by decide) _)) fun rest => ?_⟩
  have foreign : op.mark ∉ suffixOpeners := by cases op <;> decide
  have leftDerived := leftSpells.stands.expression op.mark foreign (layerOf op)
    (rightTokens ++ .symbol .rightParen :: rest)
  have rightDerived := rightSpells.stands.expression .rightParen (by decide) (layerOf op).next rest
  rw [List.append_assoc, List.cons_append]
  exact (Expression.binary (mem_operators_layerOf op) leftDerived rightDerived).weaken
    (layerOf op).equality_level_le

theorem spells_index (first : ∃ tokens, Spells left.text.toList tokens left)
    (second : ∃ tokens, Spells right.text.toList tokens right) :
    ∃ tokens, Spells (Expr.index left right).text.toList tokens (.index left right) := by
  rcases first with ⟨leftTokens, leftSpells⟩
  rcases second with ⟨rightTokens, rightSpells⟩
  have text : (Expr.index left right).text.toList =
      Symbol.leftParen.spelling.toList ++
        ((left.text.toList ++ (Symbol.leftBracket.spelling.toList ++
          (right.text.toList ++ Symbol.rightBracket.spelling.toList))) ++
          Symbol.rightParen.spelling.toList) := by
    simp [Expr.text, Symbol.spelling]
  have bracketed := rightSpells.lexes.closed .rightBracket (by decide)
  rw [text]
  refine ⟨_, .grouped (leftSpells.lexes.separated .leftBracket (by decide) bracketed)
    fun rest => ?_⟩
  have position := rightSpells.stands.expression .rightBracket (by decide) .equality
    (.symbol .rightParen :: rest)
  have chain := Chain.index (leftSpells.chain _) position
  simp only [List.append_assoc, List.cons_append, List.nil_append]
  exact chain.expression (by simp [NoneNext, suffixOpeners]) .equality

end Brackets

/-! ## Texts of listings -/

theorem Expr.texts_eq_map (values : List Expr) : Expr.texts values = values.map Expr.text := by
  induction values with
  | nil => rfl
  | cons value values inductionHypothesis => rw [Expr.texts, inductionHypothesis, List.map_cons]

theorem Expr.pairTexts_eq_map (pairs : List (Expr × Expr)) :
    Expr.pairTexts pairs = pairs.map fun pair => pair.1.text ++ ":" ++ pair.2.text := by
  induction pairs with
  | nil => rfl
  | cons pair pairs inductionHypothesis =>
    rw [Expr.pairTexts, inductionHypothesis, List.map_cons]

theorem listing_spells {values : List Expr} (close : Symbol) (foreign : close ∉ suffixOpeners)
    (spell : ∀ item ∈ values, ∃ tokens, Spells item.text.toList tokens item) :
    ∃ tokens, Lexes (Text.commaSeparated (Expr.texts values)).toList tokens ∧
      ∀ rest, Listing close (tokens ++ .symbol close :: rest) values rest := by
  have spells item member := Spells.ofSource (spell item member)
  refine ⟨commaJoined (values.map fun item => Token.ofSource item.text), ?_, ?_⟩
  · rw [Expr.texts_eq_map]
    exact .commaSeparated fun item member => (spells item member).lexes
  · refine listing_of_stands foreign (List.forall₂_map_left_iff.mpr ?_)
    exact List.forall₂_same.mpr fun item member => (spells item member).stands

/-- What is read off the texts of a key and of its value. -/
def pairParts (pair : Expr × Expr) : List Token × List Token :=
  (Token.ofSource pair.1.text, Token.ofSource pair.2.text)

theorem pairs_spell {pairs : List (Expr × Expr)}
    (keys : ∀ pair ∈ pairs, ∃ tokens, Spells pair.1.text.toList tokens pair.1)
    (values : ∀ pair ∈ pairs, ∃ tokens, Spells pair.2.text.toList tokens pair.2) :
    ∃ tokens, Lexes (Text.commaSeparated (Expr.pairTexts pairs)).toList tokens ∧
      ∀ rest, Pairs (tokens ++ .symbol .rightBrace :: rest) pairs rest := by
  have keySpells pair member := Spells.ofSource (keys pair member)
  have valueSpells pair member := Spells.ofSource (values pair member)
  refine ⟨commaJoined ((pairs.map pairParts).map pairTokens), ?_, ?_⟩
  · rw [Expr.pairTexts_eq_map, List.map_map]
    exact .commaSeparated fun pair member =>
      (keySpells pair member).lexes.pair (valueSpells pair member).lexes
  · refine pairs_of_stands (List.forall₂_map_left_iff.mpr ?_)
    exact List.forall₂_same.mpr fun pair member =>
      ⟨(keySpells pair member).stands, (valueSpells pair member).stands⟩

theorem spells_call {callee : Expr} {arguments : List Expr}
    (function : ∃ tokens, Spells callee.text.toList tokens callee)
    (values : ∀ argument ∈ arguments, ∃ tokens, Spells argument.text.toList tokens argument) :
    ∃ tokens, Spells (Expr.call callee arguments).text.toList tokens (.call callee arguments) := by
  rcases function with ⟨calleeTokens, spells⟩
  rcases listing_spells .rightParen (by decide) values with ⟨tokens, lexes, listing⟩
  have text : (Expr.call callee arguments).text.toList =
      callee.text.toList ++ (Symbol.leftParen.spelling.toList ++
        ((Text.commaSeparated (Expr.texts arguments)).toList ++
          Symbol.rightParen.spelling.toList)) := by
    simp [Expr.text, Symbol.spelling]
  rw [text]
  refine ⟨calleeTokens ++ .symbol .leftParen :: (tokens ++ [.symbol .rightParen]), ?_,
    fun rest => ?_, fun rest => ?_⟩
  · exact spells.lexes.separated .leftParen (by decide) (lexes.closed .rightParen (by decide))
  · rw [List.append_assoc, List.cons_append, List.append_assoc]
    exact .call (spells.chain _) (listing rest)
  · rw [List.append_assoc]
    exact spells.fresh _

theorem spells_array {elements : List Expr}
    (values : ∀ element ∈ elements, ∃ tokens, Spells element.text.toList tokens element) :
    ∃ tokens, Spells (Expr.array elements).text.toList tokens (.array elements) := by
  rcases listing_spells .rightBracket (by decide) values with ⟨tokens, lexes, listing⟩
  have text : (Expr.array elements).text.toList =
      Symbol.leftBracket.spelling.toList ++ ((Text.commaSeparated (Expr.texts elements)).toList ++
        Symbol.rightBracket.spelling.toList) := by
    simp [Expr.text, Symbol.spelling]
  rw [text]
  exact ⟨_, .enclosed .leftBracket .rightBracket (by decide) (by decide) lexes fun rest =>
    .primary (.array (listing rest))⟩

theorem spells_hash {pairs : List (Expr × Expr)}
    (keys : ∀ pair ∈ pairs, ∃ tokens, Spells pair.1.text.toList tokens pair.1)
    (values : ∀ pair ∈ pairs, ∃ tokens, Spells pair.2.text.toList tokens pair.2) :
    ∃ tokens, Spells (Expr.hash pairs).text.toList tokens (.hash pairs) := by
  rcases pairs_spell keys values with ⟨tokens, lexes, derived⟩
  have text : (Expr.hash pairs).text.toList =
      Symbol.leftBrace.spelling.toList ++ ((Text.commaSeparated (Expr.pairTexts pairs)).toList ++
        Symbol.rightBrace.spelling.toList) := by
    simp [Expr.text, Symbol.spelling]
  rw [text]
  exact ⟨_, .enclosed .leftBrace .rightBrace (by decide) (by decide) lexes fun rest =>
    .primary (.hash (derived rest))⟩

/-! ## Texts of programs -/

/-- The text of a canonical expression is that of the expression. -/
theorem Expr.Canonical.spells {value : Expr} (canonical : value.Canonical) :
    ∃ tokens, Spells value.text.toList tokens value := by
  induction canonical with
  | ident isName => exact ⟨_, spells_ident isName⟩
  | int nonnegative => exact spells_int nonnegative
  | bool value => exact spells_bool value
  | unary op _ inner => exact spells_unary op inner
  | binary op _ _ first second => exact spells_binary op first second
  | call _ _ function values => exact spells_call function values
  | array _ values => exact spells_array values
  | index _ _ indexed index => exact spells_index indexed index
  | hash _ _ keys values => exact spells_hash keys values

section Statements

variable {value : Expr} {rest : Program}

theorem sentence_bind {name : String} (isName : IsName name)
    (expression : ∃ tokens, Spells value.text.toList tokens value)
    (others : ∃ tokens, Lexes (Block.text rest).toList tokens ∧ Sentence tokens rest) :
    ∃ tokens, Lexes (Block.text (.bind name value :: rest)).toList tokens ∧
      Sentence tokens (.bind name value :: rest) := by
  rcases expression with ⟨tokens, spells⟩
  rcases others with ⟨behind, lexes, sentence⟩
  have text : (Block.text (.bind name value :: rest)).toList =
      Keyword.bind.spelling.toList ++ (' ' :: (name.toList ++ (' ' ::
        (Symbol.assign.spelling.toList ++ (' ' :: (value.text.toList ++
          (Symbol.semicolon.spelling.toList ++ (Block.text rest).toList))))))) := by
    simp [Block.text, Stmt.text, Symbol.spelling, Keyword.spelling]
  have terminated := spells.lexes.separated .semicolon (by decide) lexes
  have assigned := (terminated.blank (c := ' ') (by decide)).mark .assign fun _ _ => by simp
  have named := (Lexes.ident isName).append (assigned.blank (c := ' ') (by decide))
    (.cons (by decide) _)
  have whole := (Lexes.keyword .bind).append (named.blank (c := ' ') (by decide))
    (.cons (by decide) _)
  have derived := spells.stands.expression .semicolon (by decide) .equality behind
  rw [text]
  exact ⟨_, whole, .cons (.bind derived .semicolon) sentence⟩

theorem sentence_return (expression : ∃ tokens, Spells value.text.toList tokens value)
    (others : ∃ tokens, Lexes (Block.text rest).toList tokens ∧ Sentence tokens rest) :
    ∃ tokens, Lexes (Block.text (.return value :: rest)).toList tokens ∧
      Sentence tokens (.return value :: rest) := by
  rcases expression with ⟨tokens, spells⟩
  rcases others with ⟨behind, lexes, sentence⟩
  have text : (Block.text (.return value :: rest)).toList =
      Keyword.return.spelling.toList ++ (' ' :: (value.text.toList ++
        (Symbol.semicolon.spelling.toList ++ (Block.text rest).toList))) := by
    simp [Block.text, Stmt.text, Symbol.spelling, Keyword.spelling]
  have terminated := spells.lexes.separated .semicolon (by decide) lexes
  have whole := (Lexes.keyword .return).append (terminated.blank (c := ' ') (by decide))
    (.cons (by decide) _)
  have derived := spells.stands.expression .semicolon (by decide) .equality behind
  rw [text]
  exact ⟨_, whole, .cons (.return derived .semicolon) sentence⟩

theorem sentence_last (expression : ∃ tokens, Spells value.text.toList tokens value) :
    ∃ tokens, Lexes (Block.text [.expr value]).toList tokens ∧ Sentence tokens [.expr value] := by
  rcases expression with ⟨tokens, spells⟩
  have text : (Block.text [.expr value]).toList = value.text.toList := by
    simp [Block.text, Stmt.text]
  rw [text]
  exact ⟨tokens, spells.lexes, spells.stands.sentence⟩

end Statements

/-- The text of a canonical program is read as a sentence of that program. -/
theorem Program.Canonical.sentence {program : Program} (canonical : program.Canonical) :
    ∃ tokens, Lexes (Block.text program).toList tokens ∧ Sentence tokens program := by
  induction canonical with
  | nil => exact ⟨[], .nil, .nil⟩
  | last expression => exact sentence_last expression.spells
  | bind isName expression _ others => exact sentence_bind isName expression.spells others
  | «return» expression _ others => exact sentence_return expression.spells others

/-- Reading the text of a canonical program gives the program back, without a
diagnostic. -/
theorem Draft.ofSource_text {program : Program} (canonical : program.Canonical) :
    Draft.ofSource (Block.text program) = ⟨program, []⟩ := by
  rcases canonical.sentence with ⟨tokens, lexes, sentence⟩
  have read : Token.ofSource (Block.text program) = tokens := lexes.ofChars
  unfold Draft.ofSource
  rw [read]
  exact ofTokens_eq_iff_sentence.mpr sentence

/-- A product is negated and called, and the answer is indexed by a hash. -/
theorem Draft.ofSource_text_of_nested_operators :
    ∃ program : Program,
      Block.text program = "let a_b = ((-(2 * a))(true, [])[\x7b1:(a == 0)\x7d]);a_b" ∧
      Draft.ofSource (Block.text program) = ⟨program, []⟩ := by
  have a : IsName "a" := ⟨by decide, List.all_eq_true.mp rfl, rfl⟩
  have a_b : IsName "a_b" := ⟨by decide, List.all_eq_true.mp rfl, rfl⟩
  have product : Expr.Canonical (.binary (.int 2) .multiply (.ident "a")) :=
    .binary _ (.int (by decide)) (.ident a)
  have arguments : ∀ argument ∈ [Expr.bool true, .array []], argument.Canonical := by
    simp only [List.forall_mem_cons]
    exact ⟨.bool _, .array (List.forall_mem_nil _), List.forall_mem_nil _⟩
  have entry : Expr.Canonical (.hash [(.int 1, .binary (.ident "a") .equal (.int 0))]) := by
    refine .hash ?_ ?_ <;> simp only [List.forall_mem_singleton]
    · exact .int (by decide)
    · exact .binary _ (.ident a) (.int (by decide))
  have indexed := Expr.Canonical.index (.call (.unary .negate product) arguments) entry
  exact ⟨_, rfl, Draft.ofSource_text (.bind a_b indexed (.last (.ident a_b)))⟩

end Monkey
