import Mathlib.Data.Int.ModEq
import Monkey.Evaluation

/-!
# Arithmetic that wraps around

Integers have 64 bits, and the operators on them forget what does not fit. Sums,
differences, products and negations still agree with those of the whole numbers up
to multiples of `2 ^ 64`. Whatever overflows on the way, an expression that is made
of these has the one integer as its value that agrees with its exact value.
-/

namespace Monkey

/-! ## Integers that stand for whole numbers -/

/-- The integer is congruent to the exact number modulo `2 ^ 64`, and it is the only
one between `-2 ^ 63` and `2 ^ 63` that is. -/
structure Represents (value : Int64) (exact : Int) : Prop where
  lower : -2 ^ 63 ≤ value.toInt
  upper : value.toInt < 2 ^ 63
  congruent : value.toInt ≡ exact [ZMOD 2 ^ 64]
  unique : ∀ other : Int, -2 ^ 63 ≤ other → other < 2 ^ 63 → other ≡ exact [ZMOD 2 ^ 64] →
    other = value.toInt

namespace Represents

variable {value left right : Int64} {exact first second : Int}

/-- No two integers in the range are congruent. -/
theorem of_congruent (congruent : value.toInt ≡ exact [ZMOD 2 ^ 64]) :
    Represents value exact where
  lower := value.le_toInt
  upper := value.toInt_lt
  congruent := congruent
  unique other lower upper same := by
    have least := value.le_toInt
    have greatest := value.toInt_lt
    have equal : other % 2 ^ 64 = value.toInt % 2 ^ 64 := same.trans congruent.symm
    omega

theorem self (value : Int64) : Represents value value.toInt :=
  of_congruent rfl

/-- Reducing a number to the range changes it by a multiple of `2 ^ 64`. -/
theorem bmod_congruent (exact : Int) : exact.bmod (2 ^ 64) ≡ exact [ZMOD 2 ^ 64] :=
  Int.bmod_emod

theorem ofInt (exact : Int) : Represents (.ofInt exact) exact := by
  apply of_congruent
  rw [Int64.toInt_ofInt]
  exact bmod_congruent exact

theorem ofNat (exact : Nat) : Represents (.ofNat exact) exact := by
  rw [← Int64.ofInt_eq_ofNat]
  exact ofInt exact

theorem negate (operand : Represents value exact) : Represents (-value) (-exact) := by
  apply of_congruent
  rw [Int64.toInt_neg]
  exact (bmod_congruent _).trans operand.congruent.neg

theorem add (leftOperand : Represents left first) (rightOperand : Represents right second) :
    Represents (left + right) (first + second) := by
  apply of_congruent
  rw [Int64.toInt_add]
  exact (bmod_congruent _).trans (leftOperand.congruent.add rightOperand.congruent)

theorem subtract (leftOperand : Represents left first) (rightOperand : Represents right second) :
    Represents (left - right) (first - second) := by
  apply of_congruent
  rw [Int64.toInt_sub]
  exact (bmod_congruent _).trans (leftOperand.congruent.sub rightOperand.congruent)

theorem multiply (leftOperand : Represents left first) (rightOperand : Represents right second) :
    Represents (left * right) (first * second) := by
  apply of_congruent
  rw [Int64.toInt_mul]
  exact (bmod_congruent _).trans (leftOperand.congruent.mul rightOperand.congruent)

/-- Overflows on the way to a sum do not matter. -/
theorem foldl_add {start : Int64} (represents : Represents start exact)
    (numbers : List Int64) :
    Represents (numbers.foldl (· + ·) start) (exact + (numbers.map Int64.toInt).sum) := by
  induction numbers generalizing start exact with
  | nil => rwa [List.foldl_nil, List.map_nil, List.sum_nil, Int.add_zero]
  | cons number numbers inductionHypothesis =>
    rw [List.foldl_cons, List.map_cons, List.sum_cons, ← Int.add_assoc]
    exact inductionHypothesis (represents.add (.self number))

end Represents

/-! ## Expressions of arithmetic -/

/-- The expression is made of numerals, names of integers, and the operators `+`, `-`
and `*`, and this is its value among the whole numbers. -/
inductive Expr.Denotes (state : State) (scope : ScopeId) : Expr → Int → Prop
  | int (value : Int64) : Denotes state scope (.int value) value.toInt
  | ident {name : String} {value : Int64} :
      state.find? scope name = some (.integer value) →
        Denotes state scope (.ident name) value.toInt
  | negate {operand : Expr} {exact : Int} : Denotes state scope operand exact →
      Denotes state scope (.unary .negate operand) (-exact)
  | add {left right : Expr} {first second : Int} : Denotes state scope left first →
      Denotes state scope right second →
        Denotes state scope (.binary left .add right) (first + second)
  | subtract {left right : Expr} {first second : Int} : Denotes state scope left first →
      Denotes state scope right second →
        Denotes state scope (.binary left .subtract right) (first - second)
  | multiply {left right : Expr} {first second : Int} : Denotes state scope left first →
      Denotes state scope right second →
        Denotes state scope (.binary left .multiply right) (first * second)

section Evaluation

variable {call : Caller} {scope : ScopeId} {state : State}

/-- The value of an operator if neither operand changes the state. -/
theorem Expr.eval_binary_of_values {left right : Expr} {op : BinaryOp}
    {first second value : Object} (ranLeft : left.eval call scope state = .value first state)
    (ranRight : right.eval call scope state = .value second state)
    (applied : op.apply first second = .ok value) :
    (Expr.binary left op right).eval call scope state = .value value state := by
  simp only [Expr.eval, Action.bind_apply, ranLeft, ranRight, applied]
  rfl

/-- Evaluation is a homomorphism from the whole numbers to the integers of 64 bits. An
expression of arithmetic has an integer as its value, changes nothing, and calls
nothing. The integer is the one that agrees with the exact value of the expression
modulo `2 ^ 64`, however many of its parts overflow. -/
theorem Expr.eval_of_denotes {expression : Expr} {exact : Int}
    (denotes : expression.Denotes state scope exact) (call : Caller) :
    ∃ value, expression.eval call scope state = .value (.integer value) state ∧
      Represents value exact := by
  induction denotes with
  | int value => exact ⟨value, rfl, .self value⟩
  | @ident name value found =>
    refine ⟨value, ?_, .self value⟩
    simp only [Expr.eval, evalIdentifier, found]
  | negate _ operand =>
    obtain ⟨value, ran, represents⟩ := operand
    refine ⟨-value, ?_, represents.negate⟩
    rw [Expr.eval, Action.bind_apply, ran]
    rfl
  | add _ _ left right =>
    obtain ⟨first, ranLeft, representsLeft⟩ := left
    obtain ⟨second, ranRight, representsRight⟩ := right
    exact ⟨first + second, eval_binary_of_values ranLeft ranRight rfl,
      representsLeft.add representsRight⟩
  | subtract _ _ left right =>
    obtain ⟨first, ranLeft, representsLeft⟩ := left
    obtain ⟨second, ranRight, representsRight⟩ := right
    exact ⟨first - second, eval_binary_of_values ranLeft ranRight rfl,
      representsLeft.subtract representsRight⟩
  | multiply _ _ left right =>
    obtain ⟨first, ranLeft, representsLeft⟩ := left
    obtain ⟨second, ranRight, representsRight⟩ := right
    exact ⟨first * second, eval_binary_of_values ranLeft ranRight rfl,
      representsLeft.multiply representsRight⟩

end Evaluation

/-- The least integer is negated, which overflows, and so do both products and their
difference. -/
def Expr.overflowing : Expr :=
  .binary (.binary (.unary .negate (.ident "least")) .multiply (.int 3)) .subtract
    (.binary (.int 9223372036854775807) .multiply (.int (-2)))

/-- A scope in which the least integer has a name. -/
def State.bindingLeast : State :=
  State.empty.openScope none [("least", .integer Int64.minValue)]

theorem Expr.eval_of_denotes_of_overflowing :
    Expr.overflowing.Denotes .bindingLeast 0 (2 ^ 63 * 3 - (2 ^ 63 - 1) * -2) ∧
      Expr.overflowing.eval (Object.apply 0) 0 .bindingLeast =
        .value (.integer 9223372036854775806) .bindingLeast ∧
      Represents 9223372036854775806 (2 ^ 63 * 3 - (2 ^ 63 - 1) * -2) := by
  have denotes : Expr.overflowing.Denotes .bindingLeast 0 _ :=
    .subtract (.multiply (.negate (.ident rfl)) (.int 3)) (.multiply (.int _) (.int (-2)))
  obtain ⟨value, ran, represents⟩ := eval_of_denotes denotes (Object.apply 0)
  cases ran
  exact ⟨denotes, rfl, represents⟩

end Monkey
