import Monkey.Token
import Monkey.Syntax

/-!
# Precedence

How an expression may go on behind an operand, and how tightly each way of
going on binds. Binary operators fall into four levels. Unary operators bind
more tightly than all of them, and calls and indexing more tightly still.
-/

namespace Monkey

/-- Levels of binding, the weakest first. -/
inductive Level
  | lowest | equality | comparison | sum | product | unary | suffix
  deriving DecidableEq

namespace Level

/-- The place of a level, counted from the weakest. -/
def rank : Level → Nat
  | .lowest => 0
  | .equality => 1
  | .comparison => 2
  | .sum => 3
  | .product => 4
  | .unary => 5
  | .suffix => 6

instance : LT Level := ⟨fun weak strong => weak.rank < strong.rank⟩

instance : LE Level := ⟨fun weak strong => weak.rank ≤ strong.rank⟩

instance (weak strong : Level) : Decidable (weak < strong) :=
  inferInstanceAs (Decidable (weak.rank < strong.rank))

instance (weak strong : Level) : Decidable (weak ≤ strong) :=
  inferInstanceAs (Decidable (weak.rank ≤ strong.rank))

end Level

/-- The level of a binary operator. -/
def BinaryOp.level : BinaryOp → Level
  | .equal | .notEqual => .equality
  | .less | .greater => .comparison
  | .add | .subtract => .sum
  | .multiply | .divide => .product

/-- Ways in which an expression goes on behind an operand. -/
inductive Follow
  | binary (op : BinaryOp)
  | call
  | index
  deriving DecidableEq

/-- How tightly a continuation binds to the operand before it. -/
def Follow.level : Follow → Level
  | .binary op => op.level
  | .call | .index => .suffix

/-- The continuation that a symbol announces. -/
def Symbol.follow? : Symbol → Option Follow
  | .plus => some (.binary .add)
  | .minus => some (.binary .subtract)
  | .asterisk => some (.binary .multiply)
  | .slash => some (.binary .divide)
  | .less => some (.binary .less)
  | .greater => some (.binary .greater)
  | .equal => some (.binary .equal)
  | .notEqual => some (.binary .notEqual)
  | .leftParen => some .call
  | .leftBracket => some .index
  | _ => none

/-- The continuation that a token announces. -/
def Token.follow? : Token → Option Follow
  | .symbol mark => mark.follow?
  | _ => none

/-- Every continuation binds more tightly than the weakest level. -/
theorem Follow.lowest_lt_level (follow : Follow) : Level.lowest < follow.level := by
  cases follow with
  | binary op => cases op <;> decide
  | call => decide
  | index => decide

end Monkey
