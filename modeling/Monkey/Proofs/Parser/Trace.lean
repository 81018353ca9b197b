import Monkey.Syntax.Draft

/-!
# Parsers that record and give up

The parsers of a program once more, with the two things apart that happen when a statement
cannot be read: a diagnostic is recorded, and there is no value. A parser may do the one
without the other, or record more than one diagnostic.

A log keeps the diagnostics, and every attempt at a statement, at the top level and in
blocks of any depth, together with those diagnostics that are its own.

The depth of calls is bounded here as well. A parser whose calls are nested more
deeply has no run, so having one means that reading comes to its end.
-/

namespace Monkey

/-- An attempt at a statement. -/
structure Attempt where
  /-- The tokens from the first one of the statement on. -/
  start : List Token
  /-- The diagnostics that were recorded during the attempt, but for those that were
  recorded during attempts at statements inside. -/
  own : List Diagnostic
  /-- The statement, if there is one in the end. -/
  result : Option Stmt

/-- What was noted on the way. -/
structure Log where
  /-- All diagnostics, in the order in which they were recorded. -/
  errors : List Diagnostic
  /-- The diagnostics that were recorded during none of the attempts. -/
  own : List Diagnostic
  /-- The attempts at statements, in the order in which they ended. -/
  attempts : List Attempt

namespace Log

/-- Nothing was noted. -/
def empty : Log := ⟨[], [], []⟩

/-- One log and then another. -/
def append (front back : Log) : Log :=
  ⟨front.errors ++ back.errors, front.own ++ back.own, front.attempts ++ back.attempts⟩

instance : Append Log := ⟨append⟩

end Log

/-- What a parser has done. -/
structure Run (α : Type) where
  log : Log
  /-- The value, unless the parser gave up. -/
  result : Option α
  rest : List Token

/-- Changes the value, if there is one. -/
def Run.map {α β : Type} (f : α → β) (run : Run α) : Run β :=
  ⟨run.log, run.result.map f, run.rest⟩

/-- A parser that keeps a log. -/
def Tracer (α : Type) := List Token → Option (Run α)

namespace Tracer

variable {α β : Type}

/-- Calls are nested too deeply. -/
def exhausted : Tracer α := fun _ => none

/-- Ends with a value. -/
def done (value : α) : Tracer α := fun tokens =>
  some ⟨.empty, some value, tokens⟩

/-- Ends without a value. Nothing is recorded thereby. -/
def giveUp : Tracer α := fun tokens =>
  some ⟨.empty, none, tokens⟩

/-- Records a diagnostic. The parser may go on. -/
def record (diagnostic : Diagnostic) : Tracer Unit := fun tokens =>
  some ⟨⟨[diagnostic], [diagnostic], []⟩, some (), tokens⟩

/-- Goes on behind a run with what its value calls for. Nothing follows a parser that
gave up. -/
def andThen (tracer : Tracer α) (next : α → Tracer β) : Tracer β := fun tokens =>
  match tracer tokens with
  | none => none
  | some ⟨log, none, rest⟩ => some ⟨log, none, rest⟩
  | some ⟨log, some value, rest⟩ =>
      (next value rest).map fun run => ⟨log ++ run.log, run.result, run.rest⟩

instance : Monad Tracer where
  pure := done
  bind := andThen

theorem bind_apply (tracer : Tracer α) (next : α → Tracer β) (tokens : List Token) :
    (tracer >>= next) tokens = andThen tracer next tokens := rfl

/-- Goes on with a parser at the given tokens. -/
def resume (tokens : List Token) (tracer : Tracer α) : Option (Run α) :=
  tracer tokens

/-- Attempts a statement, which gives one statement or none. Diagnostics that were
recorded meanwhile, and that belong to no attempt inside, belong to this one. -/
def attempt (tracer : Tracer Stmt) : Tracer Block := fun tokens =>
  (tracer tokens).map fun run =>
    ⟨⟨run.log.errors, [], run.log.attempts ++ [⟨tokens, run.log.own, run.result⟩]⟩,
      some run.result.toList, run.rest⟩

/-! ## Single tokens -/

/-- Records that a token of the given kind had to come next, and gives up. -/
def reject (expected : Token.Kind) : Tracer α := fun tokens => resume tokens do
  record (.unexpectedToken expected (Parser.nextKind tokens))
  giveUp

/-- Takes a token of the given kind. -/
def take (expected : Token.Kind) : Tracer Token
  | [] => reject expected []
  | token :: rest =>
      if token.kind = expected then done token rest else reject expected (token :: rest)

/-- Takes the given symbol. -/
def expect (mark : Symbol) : Tracer Unit := do
  let _ ← take (.symbol mark)

/-- Takes an identifier. -/
def identifier : Tracer String := do
  let token ← take .ident
  return token.literal

/-- Takes the given symbol if it comes next, and tells whether it did. -/
def accept (mark : Symbol) : Tracer Bool := fun tokens =>
  if Parser.nextKind tokens = .symbol mark then done true tokens.tail else done false tokens

/-- The value of an integer token. -/
def integer (digits : String) : Tracer Expr :=
  let value := Text.Decimal.read digits.toList
  if value ≤ Parser.greatestNumeral then done (.int (Int64.ofNat value))
  else do
    record (.invalidInteger digits)
    giveUp

/-- Further parameters of a function literal, and its closing parenthesis. -/
def moreParameters : Nat → Tracer (List String)
  | 0 => exhausted
  | depth + 1 => do
      if ← accept .comma then
        let name ← identifier
        return name :: (← moreParameters depth)
      else
        expect .rightParen
        return []

/-- The parameters of a function literal behind its opening parenthesis. -/
def parameters (depth : Nat) : Tracer (List String) := do
  if ← accept .rightParen then return []
  else
    let name ← identifier
    return name :: (← moreParameters depth)

/-! ## Phrases

Each phrase is read clause by clause as by the parser of the same name. -/

mutual

def expression : Nat → Level → Tracer Expr
  | 0, _ => exhausted
  | depth + 1, floor => do
      let left ← operand depth
      extend depth floor left

def extend : Nat → Level → Expr → Tracer Expr
  | 0, _, _ => exhausted
  | depth + 1, floor, left => fun tokens =>
      match tokens with
      | [] => done left tokens
      | token :: rest =>
          match token.follow? with
          | none => done left tokens
          | some follow =>
              if floor < follow.level then
                (continued depth left follow >>= extend depth floor) rest
              else done left tokens

def continued : Nat → Expr → Follow → Tracer Expr
  | 0, _, _ => exhausted
  | depth + 1, left, .binary op => do
      let right ← expression depth op.level
      return .binary left op right
  | depth + 1, left, .call => do
      let arguments ← listing depth .rightParen
      return .call left arguments
  | depth + 1, left, .index => do
      let position ← expression depth .lowest
      expect .rightBracket
      return .index left position

def operand : Nat → Tracer Expr
  | 0 => exhausted
  | depth + 1 => fun tokens =>
      match tokens with
      | .ident name :: rest => done (.ident name) rest
      | .int digits :: rest => integer digits rest
      | .string text :: rest => done (.string text) rest
      | .keyword .true :: rest => done (.bool true) rest
      | .keyword .false :: rest => done (.bool false) rest
      | .symbol .bang :: rest => (expression depth .unary rest).map (.map (.unary .not))
      | .symbol .minus :: rest => (expression depth .unary rest).map (.map (.unary .negate))
      | .symbol .leftParen :: rest => grouped depth rest
      | .keyword .cond :: rest => conditional depth rest
      | .keyword .function :: rest => functionLiteral depth rest
      | .symbol .leftBracket :: rest => (listing depth .rightBracket rest).map (.map .array)
      | .symbol .leftBrace :: rest => (pairs depth rest).map (.map .hash)
      | token :: rest => resume rest do
          record (.noExpression token.kind)
          giveUp
      | [] => resume [] do
          record (.noExpression .endOfInput)
          giveUp

def grouped : Nat → Tracer Expr
  | 0 => exhausted
  | depth + 1 => do
      let inner ← expression depth .lowest
      expect .rightParen
      return inner

def conditional : Nat → Tracer Expr
  | 0 => exhausted
  | depth + 1 => do
      expect .leftParen
      let condition ← grouped depth
      expect .leftBrace
      let consequence ← block depth
      let alternative ← otherwise depth
      return .cond condition consequence alternative

def otherwise : Nat → Tracer (Option Block)
  | 0 => exhausted
  | depth + 1 => fun tokens =>
      match tokens with
      | .keyword .otherwise :: rest => resume rest do
          expect .leftBrace
          return some (← block depth)
      | tokens => done none tokens

def functionLiteral : Nat → Tracer Expr
  | 0 => exhausted
  | depth + 1 => do
      expect .leftParen
      let names ← parameters depth
      expect .leftBrace
      let body ← block depth
      return .function names body

def listing : Nat → Symbol → Tracer (List Expr)
  | 0, _ => exhausted
  | depth + 1, close => do
      if ← accept close then return []
      else items depth close

def items : Nat → Symbol → Tracer (List Expr)
  | 0, _ => exhausted
  | depth + 1, close => do
      let item ← expression depth .lowest
      if ← accept .comma then return item :: (← items depth close)
      else
        expect close
        return [item]

def pairs : Nat → Tracer (List (Expr × Expr))
  | 0 => exhausted
  | depth + 1 => do
      if ← accept .rightBrace then return []
      else
        let key ← expression depth .lowest
        expect .colon
        let value ← expression depth .lowest
        if ← accept .rightBrace then return [(key, value)]
        else
          expect .comma
          return (key, value) :: (← pairs depth)

def statement : Nat → Tracer Stmt
  | 0 => exhausted
  | depth + 1 => fun tokens =>
      match tokens with
      | .keyword .bind :: rest => resume rest do
          let name ← identifier
          expect .assign
          let value ← expression depth .lowest
          let _ ← accept .semicolon
          return .bind name value
      | .keyword .return :: rest => resume rest do
          let value ← expression depth .lowest
          let _ ← accept .semicolon
          return .return value
      | tokens => resume tokens do
          let value ← expression depth .lowest
          let _ ← accept .semicolon
          return .expr value

def block : Nat → Tracer Block
  | 0 => exhausted
  | depth + 1 => fun tokens =>
      match tokens with
      | [] => done [] []
      | .symbol .rightBrace :: rest => done [] rest
      | tokens => resume tokens do
          let first ← attempt (statement depth)
          let others ← block depth
          return first ++ others

end

def program : Nat → Tracer Program
  | 0 => exhausted
  | depth + 1 => fun tokens =>
      match tokens with
      | [] => done [] []
      | tokens => resume tokens do
          let first ← attempt (statement depth)
          let others ← program depth
          return first ++ others

end Tracer

end Monkey
