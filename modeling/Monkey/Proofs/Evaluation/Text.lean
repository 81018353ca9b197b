import Monkey.Syntax

/-!
# The parts of a text

Evaluating a text may run each statement that lies in it, except those in the
bodies of its functions. They run when the function is applied, in a scope of
their own. What evaluating a text may read, then or later, are the names that
occur in it as identifiers, and there the bodies of functions count.
-/

namespace Monkey

/-! ## Statements -/

mutual

/-- The statements in an expression outside the bodies of functions. -/
def Expr.statements : Expr → List Stmt
  | .ident _ | .int _ | .bool _ | .string _ | .function _ _ => []
  | .unary _ operand => operand.statements
  | .binary left _ right => left.statements ++ right.statements
  | .cond condition consequence none => condition.statements ++ Block.statements consequence
  | .cond condition consequence (some alternative) =>
      condition.statements ++ (Block.statements consequence ++ Block.statements alternative)
  | .call callee arguments => callee.statements ++ Expr.listStatements arguments
  | .array elements => Expr.listStatements elements
  | .index left position => left.statements ++ position.statements
  | .hash pairs => Expr.pairStatements pairs

/-- The statements in a list of expressions. -/
def Expr.listStatements : List Expr → List Stmt
  | [] => []
  | expression :: rest => expression.statements ++ Expr.listStatements rest

/-- The statements in the pairs of a hash literal. -/
def Expr.pairStatements : List (Expr × Expr) → List Stmt
  | [] => []
  | (key, value) :: rest => key.statements ++ (value.statements ++ Expr.pairStatements rest)

/-- A statement and the statements in its expression. -/
def Stmt.statements : Stmt → List Stmt
  | .bind name value => .bind name value :: value.statements
  | .return value => .return value :: value.statements
  | .expr value => .expr value :: value.statements

/-- The statements of a block and those in their expressions. -/
def Block.statements : List Stmt → List Stmt
  | [] => []
  | statement :: rest => statement.statements ++ Block.statements rest

end

/-- The names that statements bind. -/
def targets (text : List Stmt) : List String :=
  text.filterMap fun
    | .bind name _ => some name
    | _ => none

theorem mem_targets_iff {name : String} {text : List Stmt} :
    name ∈ targets text ↔ ∃ value, Stmt.bind name value ∈ text := by
  simp only [targets, List.mem_filterMap]
  constructor
  · rintro ⟨_ | _ | _, member, eq⟩ <;> cases eq
    exact ⟨_, member⟩
  · rintro ⟨value, member⟩
    exact ⟨_, member, rfl⟩

theorem targets_subset {text larger : List Stmt} (subset : text ⊆ larger) :
    targets text ⊆ targets larger := by
  intro name member
  rcases mem_targets_iff.mp member with ⟨value, member⟩
  exact mem_targets_iff.mpr ⟨value, subset member⟩

/-! ## Identifiers -/

mutual

/-- The names that occur in an expression as identifiers. Names that are bound by
statements or functions do not. -/
def Expr.identifiers : Expr → List String
  | .ident name => [name]
  | .int _ | .bool _ | .string _ => []
  | .unary _ operand => operand.identifiers
  | .binary left _ right => left.identifiers ++ right.identifiers
  | .cond condition consequence none => condition.identifiers ++ Block.identifiers consequence
  | .cond condition consequence (some alternative) =>
      condition.identifiers ++ (Block.identifiers consequence ++ Block.identifiers alternative)
  | .function _ body => Block.identifiers body
  | .call callee arguments => callee.identifiers ++ Expr.listIdentifiers arguments
  | .array elements => Expr.listIdentifiers elements
  | .index left position => left.identifiers ++ position.identifiers
  | .hash pairs => Expr.pairIdentifiers pairs

/-- The identifiers in a list of expressions. -/
def Expr.listIdentifiers : List Expr → List String
  | [] => []
  | expression :: rest => expression.identifiers ++ Expr.listIdentifiers rest

/-- The identifiers in the pairs of a hash literal. -/
def Expr.pairIdentifiers : List (Expr × Expr) → List String
  | [] => []
  | (key, value) :: rest => key.identifiers ++ (value.identifiers ++ Expr.pairIdentifiers rest)

/-- The identifiers in the expression of a statement. -/
def Stmt.identifiers : Stmt → List String
  | .bind _ value | .return value | .expr value => value.identifiers

/-- The identifiers in the statements of a block. -/
def Block.identifiers : List Stmt → List String
  | [] => []
  | statement :: rest => statement.identifiers ++ Block.identifiers rest

end

end Monkey
