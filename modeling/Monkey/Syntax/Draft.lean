import Monkey.Parser
import Monkey.Syntax.Precedence
import Monkey.Text.Decimal
import Monkey.Token.Lexer

/-!
# Reading programs

Expressions are read by binding level: an operand is extended by whatever
follows it as long as that binds more tightly than the level asked for.

Reading a program never fails as a whole. A statement that cannot be read is
dropped with one diagnostic, and reading goes on at the token where the
statement stopped. A block is ended by its closing brace or by the end of the
input.

The parsers below call each other. Their first argument bounds the depth of
these calls; `Draft.ofTokens` chooses it large enough for all of its tokens.
-/

namespace Monkey

/-- Statements that were read, and what is wrong with those that were
dropped. -/
structure Draft where
  statements : Program
  diagnostics : List Diagnostic

namespace Draft

/-- No statement was read or dropped. -/
def empty : Draft := ⟨[], []⟩

/-- What was read of one list of tokens and then of another. -/
def append (front back : Draft) : Draft :=
  ⟨front.statements ++ back.statements, front.diagnostics ++ back.diagnostics⟩

instance : Append Draft := ⟨append⟩

@[simp]
theorem statements_append (front back : Draft) :
    (front ++ back).statements = front.statements ++ back.statements := rfl

@[simp]
theorem diagnostics_append (front back : Draft) :
    (front ++ back).diagnostics = front.diagnostics ++ back.diagnostics := rfl

/-- Whether no statement was dropped. -/
def isClean (draft : Draft) : Bool :=
  draft.diagnostics.isEmpty

end Draft

namespace Parser

/-- Reads a statement, or drops it with its diagnostic. This is the only way in
which a diagnostic comes into a draft. -/
def attempt (parser : Parser Stmt) (tokens : List Token) : Draft × List Token :=
  match parser tokens with
  | ⟨diagnostics, .ok statement, rest⟩ => (⟨[statement], diagnostics⟩, rest)
  | ⟨diagnostics, .error diagnostic, rest⟩ => (⟨[], diagnostics ++ [diagnostic]⟩, rest)

/-- The statements of a draft as the value of a parser. -/
def ofDraft (read : List Token → Draft × List Token) : Parser Block := fun tokens =>
  ⟨(read tokens).1.diagnostics, .ok (read tokens).1.statements, (read tokens).2⟩

/-- The greatest integer that a numeral may denote. -/
def greatestNumeral : Nat := Nat.pow 2 63 - 1

/-- The value of an integer token. -/
def integer (digits : String) : Parser Expr :=
  let value := Text.Decimal.read digits.toList
  if value ≤ greatestNumeral then done (.int (Int64.ofNat value))
  else fail (.invalidInteger digits)

/-- Further parameters of a function literal, and its closing parenthesis. -/
def moreParameters : Parser (List String)
  | .symbol .rightParen :: rest => done [] rest
  | .symbol .comma :: .ident name :: rest => (moreParameters rest).map (name :: ·)
  | .symbol .comma :: rest => unexpected .ident rest
  | tokens => unexpected (.symbol .rightParen) tokens

/-- The parameters of a function literal behind its opening parenthesis. -/
def parameters : Parser (List String)
  | .symbol .rightParen :: rest => done [] rest
  | tokens => resume tokens do
      let name ← identifier
      let names ← moreParameters
      return name :: names

mutual

/-- An expression whose parts outside brackets all bind more tightly than
`floor`. -/
def expression : Nat → Level → Parser Expr
  | 0, _ => fun tokens => fail (.noExpression (nextKind tokens)) tokens
  | depth + 1, floor => do
      let left ← operand depth
      extend depth floor left

/-- Extends an expression by everything behind it that binds more tightly than
`floor`. -/
def extend : Nat → Level → Expr → Parser Expr
  | 0, _, left => done left
  | depth + 1, floor, left => fun tokens =>
      match tokens with
      | [] => done left tokens
      | token :: rest =>
          match token.follow? with
          | none => done left tokens
          | some follow =>
              if floor < follow.level then
                (continued depth left follow >>= extend depth floor) rest
              else done left tokens

/-- An expression together with the continuation whose first token was just
taken. -/
def continued : Nat → Expr → Follow → Parser Expr
  | 0, left, _ => done left
  | depth + 1, left, .binary op => do
      let right ← expression depth op.level
      return .binary left op right
  | depth + 1, left, .call => do
      let arguments ← listing depth .rightParen
      return .call left arguments
  | depth + 1, left, .index => do
      let position ← expression depth .lowest
      expect .rightBracket
      return .index left position

/-- An expression that does not begin with another expression. -/
def operand : Nat → Parser Expr
  | 0 => fun tokens => fail (.noExpression (nextKind tokens)) tokens
  | depth + 1 => fun tokens =>
      match tokens with
      | .ident name :: rest => done (.ident name) rest
      | .int digits :: rest => integer digits rest
      | .string text :: rest => done (.string text) rest
      | .keyword .true :: rest => done (.bool true) rest
      | .keyword .false :: rest => done (.bool false) rest
      | .symbol .bang :: rest => (expression depth .unary rest).map (.unary .not)
      | .symbol .minus :: rest => (expression depth .unary rest).map (.unary .negate)
      | .symbol .leftParen :: rest => grouped depth rest
      | .keyword .cond :: rest => conditional depth rest
      | .keyword .function :: rest => functionLiteral depth rest
      | .symbol .leftBracket :: rest => (listing depth .rightBracket rest).map .array
      | .symbol .leftBrace :: rest => (pairs depth rest).map .hash
      | token :: rest => fail (.noExpression token.kind) rest
      | [] => fail (.noExpression .endOfInput) []

/-- An expression and a closing parenthesis. -/
def grouped : Nat → Parser Expr
  | 0 => fun tokens => fail (.noExpression (nextKind tokens)) tokens
  | depth + 1 => do
      let inner ← expression depth .lowest
      expect .rightParen
      return inner

/-- A condition with one or two branches, behind its keyword. -/
def conditional : Nat → Parser Expr
  | 0 => fun tokens => fail (.noExpression (nextKind tokens)) tokens
  | depth + 1 => do
      expect .leftParen
      let condition ← grouped depth
      expect .leftBrace
      let consequence ← ofDraft (block depth)
      let alternative ← otherwise depth
      return .cond condition consequence alternative

/-- The second branch of a condition, if its keyword comes next. -/
def otherwise : Nat → Parser (Option Block)
  | 0 => done none
  | depth + 1 => fun tokens =>
      match tokens with
      | .keyword .otherwise :: rest => resume rest do
          expect .leftBrace
          return some (← ofDraft (block depth))
      | tokens => done none tokens

/-- Parameters and body of a function, behind its keyword. -/
def functionLiteral : Nat → Parser Expr
  | 0 => fun tokens => fail (.noExpression (nextKind tokens)) tokens
  | depth + 1 => do
      expect .leftParen
      let names ← parameters
      expect .leftBrace
      let body ← ofDraft (block depth)
      return .function names body

/-- Expressions separated by commas, up to and with the closing symbol. -/
def listing : Nat → Symbol → Parser (List Expr)
  | 0, _ => done []
  | depth + 1, close => do
      if ← accept close then return []
      else items depth close

/-- A listing of at least one expression. -/
def items : Nat → Symbol → Parser (List Expr)
  | 0, _ => done []
  | depth + 1, close => do
      let item ← expression depth .lowest
      if ← accept .comma then return item :: (← items depth close)
      else
        expect close
        return [item]

/-- The pairs of a hash literal, up to and with its closing brace. A comma may
stand behind the last pair. -/
def pairs : Nat → Parser (List (Expr × Expr))
  | 0 => done []
  | depth + 1 => do
      if ← accept .rightBrace then return []
      else
        let key ← expression depth .lowest
        expect .colon
        let value ← expression depth .lowest
        if ← accept .rightBrace then return [(key, value)]
        else
          expect .comma
          return (key, value) :: (← pairs depth)

/-- A statement and the semicolon behind it, if there is one. -/
def statement : Nat → Parser Stmt
  | 0 => fun tokens => fail (.noExpression (nextKind tokens)) tokens
  | depth + 1 => fun tokens =>
      match tokens with
      | .keyword .bind :: rest => resume rest do
          let name ← identifier
          expect .assign
          let value ← expression depth .lowest
          let _ ← accept .semicolon
          return .bind name value
      | .keyword .return :: rest => resume rest do
          let value ← expression depth .lowest
          let _ ← accept .semicolon
          return .return value
      | tokens => resume tokens do
          let value ← expression depth .lowest
          let _ ← accept .semicolon
          return .expr value

/-- The statements up to and with a closing brace, or up to the end of the
input. -/
def block : Nat → List Token → Draft × List Token
  | 0, tokens => (.empty, tokens)
  | depth + 1, tokens =>
      match tokens with
      | [] => (.empty, [])
      | .symbol .rightBrace :: rest => (.empty, rest)
      | tokens =>
          let (first, rest) := attempt (statement depth) tokens
          let (others, rest) := block depth rest
          (first ++ others, rest)

end

/-- All statements up to the end of the input. -/
def program : Nat → List Token → Draft
  | 0, _ => .empty
  | depth + 1, tokens =>
      match tokens with
      | [] => .empty
      | tokens =>
          let (first, rest) := attempt (statement depth) tokens
          first ++ program depth rest

/-- A depth of calls that no list of the given number of tokens exceeds. -/
def sufficientDepth (tokens : Nat) : Nat := 8 * (tokens + 2)

end Parser

namespace Draft

/-- Reads a program from its tokens. -/
def ofTokens (tokens : List Token) : Draft :=
  Parser.program (Parser.sufficientDepth tokens.length) tokens

/-- Reads a program from its text. -/
def ofSource (source : String) : Draft :=
  ofTokens (Token.ofSource source)

end Draft

end Monkey
