import Mathlib.Algebra.Group.Nat.Defs
import Monkey.Syntax
import Monkey.Text.Decimal
import Monkey.Token

/-!
# The grammar

The sentences of the language with their syntax trees, stated without the
parsers: no binding level is compared, and no order of reading is implied.

Every phrase is a relation between the tokens from its beginning on, its tree,
and the tokens behind it. What stands behind a phrase matters in three places:
a block may be closed by the end of the input instead of its brace, a statement
without a semicolon must not be followed by anything with which its expression
would go on, and an operand takes all calls and indexings behind it. Binary
operators form four layers and associate to the left; unary operators form a
fifth.
-/

namespace Monkey

/-- The symbol with which an operator is written. -/
def UnaryOp.mark : UnaryOp → Symbol
  | .not => .bang
  | .negate => .minus

/-- The symbol with which an operator is written. -/
def BinaryOp.mark : BinaryOp → Symbol
  | .add => .plus
  | .subtract => .minus
  | .multiply => .asterisk
  | .divide => .slash
  | .less => .less
  | .greater => .greater
  | .equal => .equal
  | .notEqual => .notEqual

namespace Grammar

/-- Layers of expressions, the weakest first. -/
inductive Layer
  | equality | comparison | sum | product | unary

namespace Layer

/-- The binary operators of a layer. -/
def operators : Layer → List BinaryOp
  | .equality => [.equal, .notEqual]
  | .comparison => [.less, .greater]
  | .sum => [.add, .subtract]
  | .product => [.multiply, .divide]
  | .unary => []

/-- The layer whose expressions are the operands of a layer. -/
def next : Layer → Layer
  | .equality => .comparison
  | .comparison => .sum
  | .sum => .product
  | .product => .unary
  | .unary => .unary

end Layer

/-- Brackets that open a call or an indexing. -/
def suffixOpeners : List Symbol := [.leftParen, .leftBracket]

/-- Symbols with which an expression goes on. -/
def continuations : List Symbol :=
  [.plus, .minus, .asterisk, .slash, .less, .greater, .equal, .notEqual] ++ suffixOpeners

/-- No symbol of the list comes next. -/
def NoneNext (marks : List Symbol) (rest : List Token) : Prop :=
  ∀ mark ∈ marks, rest.head? ≠ some (.symbol mark)

/-- The end of a statement. A semicolon that comes next belongs to it. Without
a semicolon the statement must not be followed by anything with which its
expression would go on. -/
inductive Terminator : List Token → List Token → Prop
  | semicolon {rest : List Token} : Terminator (.symbol .semicolon :: rest) rest
  | omitted {rest : List Token} (unfollowed : NoneNext (.semicolon :: continuations) rest) :
      Terminator rest rest

/-- At least one parameter, up to and with the closing parenthesis. -/
inductive Names : List Token → List String → List Token → Prop
  | last {name : String} {rest : List Token} :
      Names (.ident name :: .symbol .rightParen :: rest) [name] rest
  | more {name : String} {input rest : List Token} {names : List String}
      (others : Names input names rest) :
      Names (.ident name :: .symbol .comma :: input) (name :: names) rest

/-- The parameters of a function, up to and with the closing parenthesis. -/
inductive Parameters : List Token → List String → List Token → Prop
  | empty {rest : List Token} : Parameters (.symbol .rightParen :: rest) [] rest
  | names {input rest : List Token} {parameters : List String}
      (names : Names input parameters rest) : Parameters input parameters rest

mutual

/-- Expressions of a layer. -/
inductive Expression : Layer → List Token → Expr → List Token → Prop
  /-- The operands of a layer belong to it. -/
  | operand {layer : Layer} {input rest : List Token} {value : Expr}
      (operand : Expression layer.next input value rest) : Expression layer input value rest
  | binary {layer : Layer} {op : BinaryOp} {input middle rest : List Token}
      {leftValue rightValue : Expr} (member : op ∈ layer.operators)
      (left : Expression layer input leftValue (.symbol op.mark :: middle))
      (right : Expression layer.next middle rightValue rest) :
      Expression layer input (.binary leftValue op rightValue) rest
  | unary {op : UnaryOp} {input rest : List Token} {value : Expr}
      (operand : Expression .unary input value rest) :
      Expression .unary (.symbol op.mark :: input) (.unary op value) rest
  /-- No call and no indexing may be left behind. -/
  | chain {input rest : List Token} {value : Expr} (chain : Chain input value rest)
      (longest : NoneNext suffixOpeners rest) : Expression .unary input value rest

/-- A primary expression that is called and indexed any number of times. -/
inductive Chain : List Token → Expr → List Token → Prop
  | primary {input rest : List Token} {value : Expr} (primary : Primary input value rest) :
      Chain input value rest
  | call {input middle rest : List Token} {callee : Expr} {arguments : List Expr}
      (function : Chain input callee (.symbol .leftParen :: middle))
      (listing : Listing .rightParen middle arguments rest) :
      Chain input (.call callee arguments) rest
  | index {input middle rest : List Token} {left position : Expr}
      (indexed : Chain input left (.symbol .leftBracket :: middle))
      (index : Expression .equality middle position (.symbol .rightBracket :: rest)) :
      Chain input (.index left position) rest

/-- Primary expressions. -/
inductive Primary : List Token → Expr → List Token → Prop
  | ident {name : String} {rest : List Token} : Primary (.ident name :: rest) (.ident name) rest
  | int {digits : String} {rest : List Token}
      (bounded : Text.Decimal.read digits.toList ≤ 2 ^ 63 - 1) :
      Primary (.int digits :: rest) (.int (Int64.ofNat (Text.Decimal.read digits.toList))) rest
  | string {text : String} {rest : List Token} :
      Primary (.string text :: rest) (.string text) rest
  | true {rest : List Token} : Primary (.keyword .true :: rest) (.bool true) rest
  | false {rest : List Token} : Primary (.keyword .false :: rest) (.bool false) rest
  | group {input rest : List Token} {value : Expr}
      (inner : Expression .equality input value (.symbol .rightParen :: rest)) :
      Primary (.symbol .leftParen :: input) value rest
  | cond {input middle rest : List Token} {condition : Expr} {consequence : List Stmt}
      (test : Expression .equality input condition (.symbol .rightParen :: middle))
      (first : Block middle consequence rest) :
      Primary (.keyword .cond :: .symbol .leftParen :: input)
        (.cond condition consequence none) rest
  | otherwise {input middle last rest : List Token} {condition : Expr}
      {consequence alternative : List Stmt}
      (test : Expression .equality input condition (.symbol .rightParen :: middle))
      (first : Block middle consequence (.keyword .otherwise :: last))
      (second : Block last alternative rest) :
      Primary (.keyword .cond :: .symbol .leftParen :: input)
        (.cond condition consequence (some alternative)) rest
  | function {input middle rest : List Token} {names : List String} {body : List Stmt}
      (parameters : Parameters input names middle) (block : Block middle body rest) :
      Primary (.keyword .function :: .symbol .leftParen :: input) (.function names body) rest
  | array {input rest : List Token} {elements : List Expr}
      (listing : Listing .rightBracket input elements rest) :
      Primary (.symbol .leftBracket :: input) (.array elements) rest
  | hash {input rest : List Token} {entries : List (Expr × Expr)}
      (pairs : Pairs input entries rest) :
      Primary (.symbol .leftBrace :: input) (.hash entries) rest

/-- Expressions separated by commas, up to and with the closing symbol. -/
inductive Listing : Symbol → List Token → List Expr → List Token → Prop
  | empty {close : Symbol} {rest : List Token} : Listing close (.symbol close :: rest) [] rest
  | items {close : Symbol} {input rest : List Token} {values : List Expr}
      (items : Items close input values rest) : Listing close input values rest

/-- At least one expression, up to and with the closing symbol. -/
inductive Items : Symbol → List Token → List Expr → List Token → Prop
  | last {close : Symbol} {input rest : List Token} {value : Expr}
      (item : Expression .equality input value (.symbol close :: rest)) :
      Items close input [value] rest
  | more {close : Symbol} {input middle rest : List Token} {value : Expr} {values : List Expr}
      (item : Expression .equality input value (.symbol .comma :: middle))
      (others : Items close middle values rest) : Items close input (value :: values) rest

/-- The pairs of a hash literal, up to and with the closing brace, which may
stand behind a comma. -/
inductive Pairs : List Token → List (Expr × Expr) → List Token → Prop
  | empty {rest : List Token} : Pairs (.symbol .rightBrace :: rest) [] rest
  | last {input middle rest : List Token} {key value : Expr}
      (left : Expression .equality input key (.symbol .colon :: middle))
      (right : Expression .equality middle value (.symbol .rightBrace :: rest)) :
      Pairs input [(key, value)] rest
  | more {input middle last rest : List Token} {key value : Expr} {entries : List (Expr × Expr)}
      (left : Expression .equality input key (.symbol .colon :: middle))
      (right : Expression .equality middle value (.symbol .comma :: last))
      (others : Pairs last entries rest) : Pairs input ((key, value) :: entries) rest

/-- Blocks. The end of the input may stand for the closing brace. -/
inductive Block : List Token → List Stmt → List Token → Prop
  | closed {input rest : List Token} {body : List Stmt}
      (statements : Statements input body (.symbol .rightBrace :: rest)) :
      Block (.symbol .leftBrace :: input) body rest
  | unclosed {input : List Token} {body : List Stmt} (statements : Statements input body []) :
      Block (.symbol .leftBrace :: input) body []

/-- Statements with their semicolons. -/
inductive Statement : List Token → Stmt → List Token → Prop
  | bind {input middle rest : List Token} {name : String} {value : Expr}
      (expression : Expression .equality input value middle)
      (terminator : Terminator middle rest) :
      Statement (.keyword .bind :: .ident name :: .symbol .assign :: input)
        (.bind name value) rest
  | return {input middle rest : List Token} {value : Expr}
      (expression : Expression .equality input value middle)
      (terminator : Terminator middle rest) :
      Statement (.keyword .return :: input) (.return value) rest
  | expr {input middle rest : List Token} {value : Expr}
      (expression : Expression .equality input value middle)
      (terminator : Terminator middle rest) :
      Statement input (.expr value) rest

/-- Any number of statements. -/
inductive Statements : List Token → List Stmt → List Token → Prop
  | nil {rest : List Token} : Statements rest [] rest
  | cons {input middle rest : List Token} {first : Stmt} {others : List Stmt}
      (statement : Statement input first middle) (following : Statements middle others rest) :
      Statements input (first :: others) rest

end

/-- The tokens of a whole source with the program that they form. -/
def Sentence (tokens : List Token) (program : Program) : Prop :=
  Statements tokens program []

end Grammar

end Monkey
