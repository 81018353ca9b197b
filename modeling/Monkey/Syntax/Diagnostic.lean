import Monkey.Token

/-!
# Diagnostics

What is wrong with a statement that could not be read.
-/

namespace Monkey

/-- Reasons why a statement cannot be read. -/
inductive Diagnostic
  /-- One kind of token had to come next, but another came. -/
  | unexpectedToken (expected actual : Token.Kind)
  /-- No expression begins with a token of this kind. -/
  | noExpression (kind : Token.Kind)
  /-- The numeral denotes no 64-bit signed integer. -/
  | invalidInteger (digits : String)
  deriving DecidableEq

/-- The wording of a diagnostic. -/
def Diagnostic.message : Diagnostic → String
  | .unexpectedToken expected actual =>
      "expected next token to be " ++ expected.name ++ ", got " ++ actual.name ++ " instead"
  | .noExpression kind => "no prefix parse function for " ++ kind.name ++ " found"
  | .invalidInteger digits => "could not parse " ++ digits ++ " as integer"

end Monkey
