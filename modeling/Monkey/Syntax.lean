/-!
# Syntax trees

A program is a list of statements. Expressions hold blocks, which are lists of
statements again, so the two kinds of tree are defined together.
-/

namespace Monkey

/-- Operators with one operand. -/
inductive UnaryOp
  | not | negate
  deriving DecidableEq

/-- Operators with two operands. -/
inductive BinaryOp
  | add | subtract | multiply | divide | less | greater | equal | notEqual
  deriving DecidableEq

/-- How an operator is written. -/
def UnaryOp.spelling : UnaryOp → String
  | .not => "!"
  | .negate => "-"

/-- How an operator is written. -/
def BinaryOp.spelling : BinaryOp → String
  | .add => "+"
  | .subtract => "-"
  | .multiply => "*"
  | .divide => "/"
  | .less => "<"
  | .greater => ">"
  | .equal => "=="
  | .notEqual => "!="

mutual

/-- Expressions. -/
inductive Expr
  | ident (name : String)
  | int (value : Int64)
  | bool (value : Bool)
  | string (text : String)
  | unary (op : UnaryOp) (operand : Expr)
  | binary (left : Expr) (op : BinaryOp) (right : Expr)
  | cond (condition : Expr) (consequence : List Stmt) (alternative : Option (List Stmt))
  | function (parameters : List String) (body : List Stmt)
  | call (callee : Expr) (arguments : List Expr)
  | array (elements : List Expr)
  | index (left : Expr) (position : Expr)
  | hash (pairs : List (Expr × Expr))

/-- Statements. -/
inductive Stmt
  /-- Binds a name in the scope where the statement stands. -/
  | bind (name : String) (value : Expr)
  /-- Leaves the function that is being applied. -/
  | return (value : Expr)
  | expr (value : Expr)

end

/-- The statements between a pair of braces. -/
abbrev Block := List Stmt

/-- The statements of a whole source. -/
abbrev Program := List Stmt

end Monkey
