import Monkey.Proofs.Grammar

/-!
# The grammar in outline

The rules of the language as its users are told them. Nothing is said about
binding levels, so a sentence may have several derivations; trees are left out.

    program     → statement*
    statement   → "let" IDENTIFIER "=" expression ";"? | "return" expression ";"?
                | expression ";"?
    block       → "{" statement* "}"
    expression  → operand continuation*
    operand     → IDENTIFIER | NUMBER | STRING | "true" | "false"
                | ( "!" | "-" ) expression
                | "(" expression ")"
                | "if" "(" expression ")" block ( "else" block )?
                | "fn" "(" parameters? ")" block
                | "[" arguments? "]"
                | "{" ( expression ":" expression ( "," expression ":" expression )* )? "}"
    continuation → ( "==" | "!=" | "<" | ">" | "+" | "-" | "*" | "/" ) expression
                | "(" arguments? ")"
                | "[" expression "]"
    parameters  → IDENTIFIER ( "," IDENTIFIER )*
    arguments   → expression ( "," expression )*

In a sentence the braces are balanced, and a comma is never followed by a
closing brace. The parsers are more generous in both respects: a block may be
closed by the end of the input, and a comma may stand behind the last pair of a
hash. A source that is read without a diagnostic, and that has no comma in
front of a closing brace, lacks nothing but the closing braces of blocks.
-/

namespace Monkey.Grammar.Outline

/-- An optional semicolon. -/
inductive Semicolon : List Token → List Token → Prop
  | present {rest : List Token} : Semicolon (.symbol .semicolon :: rest) rest
  | absent {rest : List Token} : Semicolon rest rest

/-- Identifiers separated by commas. -/
inductive Parameters : List Token → List Token → Prop
  | last {name : String} {rest : List Token} : Parameters (.ident name :: rest) rest
  | more {name : String} {input rest : List Token} (others : Parameters input rest) :
      Parameters (.ident name :: .symbol .comma :: input) rest

mutual

/-- An operand with all that continues it. -/
inductive Expression (lenient : Bool) : List Token → List Token → Prop
  | mk {input middle rest : List Token} (operand : Operand lenient input middle)
      (others : Continuations lenient middle rest) : Expression lenient input rest

/-- What an expression may begin with. -/
inductive Operand (lenient : Bool) : List Token → List Token → Prop
  | ident {name : String} {rest : List Token} : Operand lenient (.ident name :: rest) rest
  | int {digits : String} {rest : List Token} : Operand lenient (.int digits :: rest) rest
  | string {text : String} {rest : List Token} : Operand lenient (.string text :: rest) rest
  | true {rest : List Token} : Operand lenient (.keyword .true :: rest) rest
  | false {rest : List Token} : Operand lenient (.keyword .false :: rest) rest
  | unary {op : UnaryOp} {input rest : List Token} (operand : Expression lenient input rest) :
      Operand lenient (.symbol op.mark :: input) rest
  | group {input rest : List Token}
      (inner : Expression lenient input (.symbol .rightParen :: rest)) :
      Operand lenient (.symbol .leftParen :: input) rest
  | cond {input middle rest : List Token}
      (test : Expression lenient input (.symbol .rightParen :: middle))
      (first : Block lenient middle rest) :
      Operand lenient (.keyword .cond :: .symbol .leftParen :: input) rest
  | otherwise {input middle last rest : List Token}
      (test : Expression lenient input (.symbol .rightParen :: middle))
      (first : Block lenient middle (.keyword .otherwise :: last))
      (second : Block lenient last rest) :
      Operand lenient (.keyword .cond :: .symbol .leftParen :: input) rest
  | procedure {input rest : List Token} (body : Block lenient input rest) :
      Operand lenient
        (.keyword .function :: .symbol .leftParen :: .symbol .rightParen :: input) rest
  | function {input middle rest : List Token}
      (parameters : Parameters input (.symbol .rightParen :: middle))
      (body : Block lenient middle rest) :
      Operand lenient (.keyword .function :: .symbol .leftParen :: input) rest
  | emptyArray {rest : List Token} :
      Operand lenient (.symbol .leftBracket :: .symbol .rightBracket :: rest) rest
  | array {input rest : List Token}
      (elements : Arguments lenient input (.symbol .rightBracket :: rest)) :
      Operand lenient (.symbol .leftBracket :: input) rest
  | emptyHash {rest : List Token} :
      Operand lenient (.symbol .leftBrace :: .symbol .rightBrace :: rest) rest
  | hash {input rest : List Token}
      (pairs : Pairs lenient input (.symbol .rightBrace :: rest)) :
      Operand lenient (.symbol .leftBrace :: input) rest

/-- Any number of continuations. -/
inductive Continuations (lenient : Bool) : List Token → List Token → Prop
  | nil {rest : List Token} : Continuations lenient rest rest
  | cons {input middle rest : List Token} (first : Continuation lenient input middle)
      (others : Continuations lenient middle rest) : Continuations lenient input rest

/-- What continues an expression. -/
inductive Continuation (lenient : Bool) : List Token → List Token → Prop
  | binary {op : BinaryOp} {input rest : List Token} (right : Expression lenient input rest) :
      Continuation lenient (.symbol op.mark :: input) rest
  | emptyCall {rest : List Token} :
      Continuation lenient (.symbol .leftParen :: .symbol .rightParen :: rest) rest
  | call {input rest : List Token}
      (arguments : Arguments lenient input (.symbol .rightParen :: rest)) :
      Continuation lenient (.symbol .leftParen :: input) rest
  | index {input rest : List Token}
      (position : Expression lenient input (.symbol .rightBracket :: rest)) :
      Continuation lenient (.symbol .leftBracket :: input) rest

/-- Expressions separated by commas. -/
inductive Arguments (lenient : Bool) : List Token → List Token → Prop
  | last {input rest : List Token} (item : Expression lenient input rest) :
      Arguments lenient input rest
  | more {input middle rest : List Token}
      (item : Expression lenient input (.symbol .comma :: middle))
      (others : Arguments lenient middle rest) : Arguments lenient input rest

/-- Keys with their values, separated by commas. -/
inductive Pairs (lenient : Bool) : List Token → List Token → Prop
  | last {input middle rest : List Token}
      (key : Expression lenient input (.symbol .colon :: middle))
      (value : Expression lenient middle rest) : Pairs lenient input rest
  | more {input middle last rest : List Token}
      (key : Expression lenient input (.symbol .colon :: middle))
      (value : Expression lenient middle (.symbol .comma :: last))
      (others : Pairs lenient last rest) : Pairs lenient input rest

/-- Statements in braces. Only in the lenient grammar may the end of the input
stand for the closing brace. -/
inductive Block (lenient : Bool) : List Token → List Token → Prop
  | closed {input rest : List Token}
      (statements : Statements lenient input (.symbol .rightBrace :: rest)) :
      Block lenient (.symbol .leftBrace :: input) rest
  | unclosed {input : List Token} (allowed : lenient = Bool.true)
      (statements : Statements lenient input []) : Block lenient (.symbol .leftBrace :: input) []

/-- Statements with their semicolons. -/
inductive Statement (lenient : Bool) : List Token → List Token → Prop
  | bind {name : String} {input middle rest : List Token}
      (value : Expression lenient input middle) (semicolon : Semicolon middle rest) :
      Statement lenient (.keyword .bind :: .ident name :: .symbol .assign :: input) rest
  | return {input middle rest : List Token} (value : Expression lenient input middle)
      (semicolon : Semicolon middle rest) : Statement lenient (.keyword .return :: input) rest
  | expr {input middle rest : List Token} (value : Expression lenient input middle)
      (semicolon : Semicolon middle rest) : Statement lenient input rest

/-- Any number of statements. -/
inductive Statements (lenient : Bool) : List Token → List Token → Prop
  | nil {rest : List Token} : Statements lenient rest rest
  | cons {input middle rest : List Token} (first : Statement lenient input middle)
      (others : Statements lenient middle rest) : Statements lenient input rest

end

/-- The tokens of a program. -/
def Program (lenient : Bool) (tokens : List Token) : Prop :=
  Statements lenient tokens []

/-! ## Balanced braces and commas that go on -/

/-- Tokens other than braces and commas. -/
def isPlain : Token → Bool
  | .symbol .leftBrace | .symbol .rightBrace | .symbol .comma => false
  | _ => true

/-- A comma in front of a closing brace. -/
def danglingComma : List Token := [.symbol .comma, .symbol .rightBrace]

/-- Between two places of a sentence as many braces are opened as are closed,
and no comma stands in front of a closing brace. -/
structure Regular (input rest : List Token) : Prop where
  balanced : input.count (.symbol .leftBrace) + rest.count (.symbol .rightBrace) =
    input.count (.symbol .rightBrace) + rest.count (.symbol .leftBrace)
  commas : danglingComma <:+: input → danglingComma <:+: rest

theorem danglingComma_infix_cons {token : Token} {tokens : List Token}
    (dangling : danglingComma <:+: token :: tokens) :
    (token = .symbol .comma ∧ tokens.head? = some (.symbol .rightBrace)) ∨
      danglingComma <:+: tokens := by
  rcases List.infix_cons_iff.mp dangling with front | inside
  · rcases List.cons_prefix_cons.mp front with ⟨rfl, behind, rfl⟩
    exact .inl ⟨rfl, rfl⟩
  · exact .inr inside

namespace Regular

variable {token : Token} {input middle rest : List Token}

theorem refl (tokens : List Token) : Regular tokens tokens :=
  ⟨Nat.add_comm _ _, id⟩

theorem trans (first : Regular input middle) (second : Regular middle rest) :
    Regular input rest where
  balanced := by
    have front := first.balanced
    have back := second.balanced
    omega
  commas := second.commas ∘ first.commas

/-- A token that is no brace and no comma may stand anywhere. -/
theorem single (plain : isPlain token = true) : Regular (token :: rest) rest where
  balanced := by
    have notLeft : token ≠ .symbol .leftBrace := by
      rintro rfl
      cases plain
    have notRight : token ≠ .symbol .rightBrace := by
      rintro rfl
      cases plain
    simp [notLeft, notRight, Nat.add_comm]
  commas dangling := by
    refine (danglingComma_infix_cons dangling).resolve_left ?_
    rintro ⟨rfl, -⟩
    cases plain

theorem cons (plain : isPlain token = true) (behind : Regular input rest) :
    Regular (token :: input) rest :=
  (single plain).trans behind

/-- What stands behind a comma does not begin with a closing brace. -/
theorem comma (opens : input.head? ≠ some (.symbol .rightBrace)) (behind : Regular input rest) :
    Regular (.symbol .comma :: input) rest where
  balanced := by
    have back := behind.balanced
    simpa [List.count_cons] using back
  commas dangling :=
    behind.commas ((danglingComma_infix_cons dangling).resolve_left fun comma => opens comma.2)

theorem braces (inside : Regular input (.symbol .rightBrace :: rest)) :
    Regular (.symbol .leftBrace :: input) rest where
  balanced := by
    have balanced := inside.balanced
    simp only [List.count_cons, beq_iff_eq, Token.symbol.injEq, reduceCtorEq, if_true, if_false]
      at balanced ⊢
    omega
  commas dangling := by
    have behind := inside.commas
      ((danglingComma_infix_cons dangling).resolve_left fun comma => by cases comma.1)
    exact (danglingComma_infix_cons behind).resolve_left fun comma => by cases comma.1

end Regular

section

variable {lenient : Bool} {input rest : List Token}

theorem Operand.head?_ne (operand : Operand lenient input rest) :
    input.head? ≠ some (.symbol .rightBrace) := by
  cases operand with
  | @unary op => cases op <;> simp [UnaryOp.mark]
  | _ => simp

theorem Expression.head?_ne (expression : Expression lenient input rest) :
    input.head? ≠ some (.symbol .rightBrace) := by
  cases expression with
  | mk operand => exact operand.head?_ne

theorem Arguments.head?_ne (arguments : Arguments lenient input rest) :
    input.head? ≠ some (.symbol .rightBrace) := by
  cases arguments with
  | last item => exact item.head?_ne
  | more item => exact item.head?_ne

theorem Pairs.head?_ne (pairs : Pairs lenient input rest) :
    input.head? ≠ some (.symbol .rightBrace) := by
  cases pairs with
  | last key => exact key.head?_ne
  | more key => exact key.head?_ne

end

theorem Semicolon.regular {input rest : List Token} (semicolon : Semicolon input rest) :
    Regular input rest := by
  cases semicolon with
  | present => exact .single rfl
  | absent => exact .refl _

theorem Parameters.regular {input rest : List Token} (parameters : Parameters input rest) :
    Regular input rest := by
  induction parameters with
  | last => exact .single rfl
  | more others inductionHypothesis =>
    refine .cons rfl (.comma ?_ inductionHypothesis)
    cases others <;> simp

mutual

theorem Expression.regular {input rest : List Token} :
    Expression false input rest → Regular input rest
  | .mk operand others => operand.regular.trans others.regular

theorem Operand.regular {input rest : List Token} :
    Operand false input rest → Regular input rest
  | .ident | .int | .string | .true | .false => .single rfl
  | @Operand.unary _ op _ _ operand => .cons (by cases op <;> rfl) operand.regular
  | .group inner => .cons rfl (inner.regular.trans (.single rfl))
  | .cond test first =>
      .cons rfl (.cons rfl (test.regular.trans (.cons rfl first.regular)))
  | .otherwise test first second =>
      .cons rfl (.cons rfl (test.regular.trans
        (.cons rfl (first.regular.trans (.cons rfl second.regular)))))
  | .procedure body => .cons rfl (.cons rfl (.cons rfl body.regular))
  | .function parameters body =>
      .cons rfl (.cons rfl
        (parameters.regular.trans (.cons rfl body.regular)))
  | .emptyArray => .cons rfl (.single rfl)
  | .array elements => .cons rfl (elements.regular.trans (.single rfl))
  | .emptyHash => .braces (.refl _)
  | .hash pairs => .braces pairs.regular

theorem Continuations.regular {input rest : List Token} :
    Continuations false input rest → Regular input rest
  | .nil => .refl _
  | .cons first others => first.regular.trans others.regular

theorem Continuation.regular {input rest : List Token} :
    Continuation false input rest → Regular input rest
  | @Continuation.binary _ op _ _ right => .cons (by cases op <;> rfl) right.regular
  | .emptyCall => .cons rfl (.single rfl)
  | .call arguments => .cons rfl (arguments.regular.trans (.single rfl))
  | .index position => .cons rfl (position.regular.trans (.single rfl))

theorem Arguments.regular {input rest : List Token} :
    Arguments false input rest → Regular input rest
  | .last item => item.regular
  | .more item others => item.regular.trans (.comma others.head?_ne others.regular)

theorem Pairs.regular {input rest : List Token} :
    Pairs false input rest → Regular input rest
  | .last key value => key.regular.trans (.cons rfl value.regular)
  | .more key value others =>
      key.regular.trans (.cons rfl
        (value.regular.trans (.comma others.head?_ne others.regular)))

theorem Block.regular {input rest : List Token} :
    Block false input rest → Regular input rest
  | .closed statements => .braces statements.regular

theorem Statement.regular {input rest : List Token} :
    Statement false input rest → Regular input rest
  | .bind value semicolon =>
      .cons rfl (.cons rfl (.cons rfl
        (value.regular.trans semicolon.regular)))
  | .return value semicolon => .cons rfl (value.regular.trans semicolon.regular)
  | .expr value semicolon => value.regular.trans semicolon.regular

theorem Statements.regular {input rest : List Token} :
    Statements false input rest → Regular input rest
  | .nil => .refl _
  | .cons first others => first.regular.trans others.regular

end

/-- As many braces are closed in a program as are opened. -/
theorem Program.balanced {tokens : List Token} (program : Program false tokens) :
    tokens.count (.symbol .leftBrace) = tokens.count (.symbol .rightBrace) := by
  simpa using (Statements.regular program).balanced

/-- No comma of a program stands in front of a closing brace. -/
theorem Program.no_danglingComma {tokens : List Token} (program : Program false tokens) :
    ¬ danglingComma <:+: tokens := by
  intro dangling
  have behind := (Statements.regular program).commas dangling
  simp [danglingComma] at behind

end Monkey.Grammar.Outline
