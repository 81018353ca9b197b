import Monkey.Token
import Monkey.Syntax.Diagnostic

/-!
# Parsers

A parser takes tokens from the front of a list. It ends with a value or with
the one diagnostic that stopped it, and in both cases with the tokens that are
left. Statements inside blocks may fail without stopping the parser around
them; their diagnostics are collected on the way.
-/

namespace Monkey

/-- What a parser ends with. -/
structure Parsed (α : Type) where
  /-- Diagnostics of the statements that were dropped, in order. -/
  diagnostics : List Diagnostic
  /-- The value, or the reason why there is none. -/
  outcome : Except Diagnostic α
  /-- The tokens that are left. -/
  rest : List Token

/-- Changes the value, if there is one. -/
def Parsed.map {α β : Type} (f : α → β) (parsed : Parsed α) : Parsed β :=
  ⟨parsed.diagnostics, parsed.outcome.map f, parsed.rest⟩

/-- Reads a value from the front of a list of tokens. -/
def Parser (α : Type) := List Token → Parsed α

namespace Parser

variable {α β γ : Type}

/-- Ends with a value and takes no token. -/
def done (value : α) : Parser α := fun tokens =>
  ⟨[], .ok value, tokens⟩

/-- Ends with a diagnostic and takes no token. -/
def fail (diagnostic : Diagnostic) : Parser α := fun tokens =>
  ⟨[], .error diagnostic, tokens⟩

/-- Goes on behind a parser with what its value calls for. Nothing follows a
parser that failed. -/
def andThen (parser : Parser α) (next : α → Parser β) : Parser β := fun tokens =>
  match parser tokens with
  | ⟨diagnostics, .ok value, rest⟩ =>
      let ⟨later, outcome, remaining⟩ := next value rest
      ⟨diagnostics ++ later, outcome, remaining⟩
  | ⟨diagnostics, .error diagnostic, rest⟩ => ⟨diagnostics, .error diagnostic, rest⟩

/-- Goes on with a parser at the given tokens. -/
def resume (tokens : List Token) (parser : Parser α) : Parsed α :=
  parser tokens

instance : Monad Parser where
  pure := done
  bind := andThen

@[simp]
theorem pure_apply (value : α) (tokens : List Token) :
    (pure value : Parser α) tokens = ⟨[], .ok value, tokens⟩ := rfl

theorem bind_apply_of_ok {parser : Parser α} {next : α → Parser β}
    {tokens rest : List Token} {diagnostics : List Diagnostic} {value : α}
    (parsed : parser tokens = ⟨diagnostics, .ok value, rest⟩) :
    (parser >>= next) tokens =
      ⟨diagnostics ++ (next value rest).diagnostics, (next value rest).outcome,
        (next value rest).rest⟩ := by
  simp [bind, andThen, parsed]

theorem bind_apply_of_error {parser : Parser α} {next : α → Parser β}
    {tokens rest : List Token} {diagnostics : List Diagnostic} {diagnostic : Diagnostic}
    (parsed : parser tokens = ⟨diagnostics, .error diagnostic, rest⟩) :
    (parser >>= next) tokens = ⟨diagnostics, .error diagnostic, rest⟩ := by
  simp [bind, andThen, parsed]

/-- The kind of the next token. -/
def nextKind : List Token → Token.Kind
  | [] => .endOfInput
  | token :: _ => token.kind

/-- Fails because a token of the given kind had to come next. -/
def unexpected (expected : Token.Kind) : Parser α := fun tokens =>
  fail (.unexpectedToken expected (nextKind tokens)) tokens

/-- Takes the given symbol. -/
def expect (mark : Symbol) : Parser Unit
  | .symbol found :: rest =>
      if found = mark then done () rest
      else unexpected (.symbol mark) (.symbol found :: rest)
  | tokens => unexpected (.symbol mark) tokens

/-- Takes an identifier. -/
def identifier : Parser String
  | .ident name :: rest => done name rest
  | tokens => unexpected .ident tokens

/-- Takes the given symbol if it comes next, and tells whether it did. -/
def accept (mark : Symbol) : Parser Bool
  | .symbol found :: rest =>
      if found = mark then done true rest else done false (.symbol found :: rest)
  | tokens => done false tokens

end Parser

end Monkey
