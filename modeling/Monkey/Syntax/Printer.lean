import Monkey.Syntax
import Monkey.Text.Decimal
import Monkey.Text.Listing

/-!
# The text of a syntax tree

Every tree has one canonical text. Operators are written with parentheses
around them and their operands, so the text shows the shape of the tree.
Strings are written without quotes, and blocks without braces.

The lead of a tree is the text of the token that begins or names it.
-/

namespace Monkey

mutual

/-- The canonical text of an expression. -/
def Expr.text : Expr → String
  | .ident name => name
  | .int value => Text.Decimal.writeInt value.toInt
  | .bool value => toString value
  | .string text => text
  | .unary op operand => "(" ++ op.spelling ++ operand.text ++ ")"
  | .binary left op right =>
      "(" ++ left.text ++ " " ++ op.spelling ++ " " ++ right.text ++ ")"
  | .cond condition consequence none =>
      "if" ++ condition.text ++ " " ++ Block.text consequence
  | .cond condition consequence (some alternative) =>
      "if" ++ condition.text ++ " " ++ Block.text consequence ++
        "else " ++ Block.text alternative
  | .function parameters body =>
      "fn(" ++ Text.commaSeparated parameters ++ ") " ++ Block.text body
  | .call callee arguments =>
      callee.text ++ "(" ++ Text.commaSeparated (Expr.texts arguments) ++ ")"
  | .array elements => "[" ++ Text.commaSeparated (Expr.texts elements) ++ "]"
  | .index left position => "(" ++ left.text ++ "[" ++ position.text ++ "])"
  | .hash pairs => "\x7b" ++ Text.commaSeparated (Expr.pairTexts pairs) ++ "\x7d"

/-- The canonical texts of expressions in order. -/
def Expr.texts : List Expr → List String
  | [] => []
  | expression :: rest => expression.text :: Expr.texts rest

/-- The texts of the pairs of a hash literal, a colon between key and value. -/
def Expr.pairTexts : List (Expr × Expr) → List String
  | [] => []
  | (key, value) :: rest => (key.text ++ ":" ++ value.text) :: Expr.pairTexts rest

/-- The canonical text of a statement. An expression has no semicolon. -/
def Stmt.text : Stmt → String
  | .bind name value => "let " ++ name ++ " = " ++ value.text ++ ";"
  | .return value => "return " ++ value.text ++ ";"
  | .expr value => value.text

/-- The canonical texts of the statements of a block, one behind the other. -/
def Block.text : List Stmt → String
  | [] => ""
  | statement :: rest => statement.text ++ Block.text rest

end

/-- The text of the token that begins or names an expression. -/
def Expr.lead : Expr → String
  | .ident name => name
  | .int value => Text.Decimal.writeInt value.toInt
  | .bool value => toString value
  | .string text => text
  | .unary op _ => op.spelling
  | .binary _ op _ => op.spelling
  | .cond .. => "if"
  | .function .. => "fn"
  | .call .. => "("
  | .array _ => "["
  | .index .. => "["
  | .hash _ => "\x7b"

/-- The text of the token that begins or names a statement. -/
def Stmt.lead : Stmt → String
  | .bind .. => "let"
  | .return _ => "return"
  | .expr value => value.lead

/-- The lead of a program is that of its first statement. -/
def Program.lead : Program → String
  | [] => ""
  | statement :: _ => statement.lead

end Monkey
