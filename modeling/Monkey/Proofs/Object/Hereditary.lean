import Monkey.Builtin.Call
import Monkey.Object.Operator

/-!
# Hereditary properties

Operators, indexing and builtins take objects apart and put parts together,
but they make no object of a new kind. A property that is a matter of the parts
of an object passes from their operands to their values.
-/

namespace Monkey

/-- A property that an array or a hash has if its parts have it, and that all
objects without parts have, other than return values and errors. -/
structure Hereditary (good : Object → Prop) : Prop where
  integer : ∀ value, good (.integer value)
  boolean : ∀ value, good (.boolean value)
  null : good .null
  string : ∀ text, good (.string text)
  function : ∀ closure, good (.function closure)
  builtin : ∀ primitive, good (.builtin primitive)
  array_iff : ∀ elements, good (.array elements) ↔ ∀ element ∈ elements, good element
  hash_iff : ∀ entries, good (.hash entries) ↔
    ∀ entry ∈ entries, good entry.2.1 ∧ good entry.2.2

namespace Hereditary

variable {good : Object → Prop}

protected theorem true : Hereditary fun _ => True := by
  constructor <;> simp

/-- The value of a unary operator has no parts. -/
theorem unary (hereditary : Hereditary good) {op : UnaryOp} {operand result : Object}
    (applied : op.apply operand = .ok result) : good result := by
  unfold UnaryOp.apply at applied
  split at applied <;> cases applied
  · exact hereditary.boolean _
  · exact hereditary.integer _

theorem equality (hereditary : Hereditary good) {op : BinaryOp} {same : Bool}
    {otherwise : RuntimeError} {result : Object}
    (applied : (op.equality? same).elim (.error otherwise) .ok = Except.ok result) :
    good result := by
  cases op <;> cases applied <;> exact hereditary.boolean _

theorem integers (hereditary : Hereditary good) {op : BinaryOp} {left right : Int64}
    {result : Object} (applied : op.applyIntegers left right = .ok result) : good result := by
  unfold BinaryOp.applyIntegers at applied
  split at applied
  case h_4 =>
    split at applied <;> cases applied
    exact hereditary.integer _
  all_goals
    cases applied
    first
      | exact hereditary.integer _
      | exact hereditary.boolean _

theorem strings (hereditary : Hereditary good) {op : BinaryOp} {left right : String}
    {otherwise : RuntimeError} {result : Object}
    (applied : (op.applyStrings? left right).elim (.error otherwise) .ok = Except.ok result) :
    good result := by
  unfold BinaryOp.applyStrings? at applied
  split at applied
  · cases applied
    exact hereditary.string _
  · exact hereditary.equality applied

/-- The value of a binary operator has no parts. -/
theorem binary (hereditary : Hereditary good) {op : BinaryOp} {left right result : Object}
    (applied : op.apply left right = .ok result) : good result := by
  unfold BinaryOp.apply at applied
  split at applied
  · exact hereditary.integers applied
  · exact hereditary.strings applied
  · exact hereditary.equality applied
  · exact hereditary.equality applied
  · split at applied
    · cases applied
    · exact hereditary.equality applied

/-- What is taken out of a list, if anything, or else null. -/
theorem element (hereditary : Hereditary good) {elements : List Object} {found : Option Object}
    (parts : ∀ element ∈ elements, good element) (member : ∀ element ∈ found, element ∈ elements) :
    good (found.getD .null) := by
  cases found with
  | none => exact hereditary.null
  | some element => exact parts element (member element rfl)

/-- What is found in an array or a hash is part of it, or null. -/
theorem index (hereditary : Hereditary good) {left position result : Object} (whole : good left)
    (applied : left.index position = .ok result) : good result := by
  cases left with
  | array elements =>
    cases position with
    | integer place =>
      cases applied
      split
      · exact hereditary.null
      · have parts := (hereditary.array_iff elements).mp whole
        exact hereditary.element parts fun element found => List.mem_of_getElem? found
    | _ => cases applied
  | hash entries =>
    simp only [Object.index] at applied
    rcases hashed : position.hashKey with cause | slot <;> rw [hashed] at applied
    · cases applied
    · cases applied
      cases found : Dictionary.find? slot entries with
      | none => exact hereditary.null
      | some pair =>
        have member := Dictionary.mem_of_find?_eq_some found
        exact ((hereditary.hash_iff entries).mp whole _ member).2
  | _ => cases applied

/-- A builtin of one array goes on with an array whose elements have the
property. -/
theorem arrayArgument (hereditary : Hereditary good) {primitive : Builtin}
    {arguments : List Object} {next : List Object → Except RuntimeError Object} {result : Object}
    (parts : ∀ argument ∈ arguments, good argument)
    (applied : (Builtin.arrayArgument primitive arguments >>= next) = .ok result) :
    ∃ elements, (∀ element ∈ elements, good element) ∧ next elements = .ok result := by
  rcases taken : Builtin.arrayArgument primitive arguments with cause | elements <;>
    rw [taken] at applied
  · cases applied
  · have only := Builtin.arrayArgument_eq_ok_iff.mp taken
    have array := parts (.array elements) (only ▸ .head _)
    exact ⟨elements, (hereditary.array_iff elements).mp array, applied⟩

theorem push (hereditary : Hereditary good) {arguments : List Object} {result : Object}
    (parts : ∀ argument ∈ arguments, good argument)
    (applied : Builtin.push.value arguments = .ok result) : good result := by
  simp only [Builtin.value] at applied
  split at applied
  · next elements element =>
    cases applied
    have whole := (hereditary.array_iff elements).mp (parts _ (.head _))
    apply (hereditary.array_iff _).mpr
    intro part inside
    rcases List.mem_append.mp inside with inside | inside
    · exact whole part inside
    · exact parts part (.tail _ inside)
  · cases applied
  · cases applied

/-- The value of a builtin is made of parts of its arguments. -/
theorem builtinValue (hereditary : Hereditary good) {primitive : Builtin}
    {arguments : List Object} {result : Object} (parts : ∀ argument ∈ arguments, good argument)
    (applied : primitive.value arguments = .ok result) : good result := by
  cases primitive with
  | len =>
    simp only [Builtin.value] at applied
    rcases taken : Builtin.oneArgument arguments with cause | argument <;> rw [taken] at applied
    · cases applied
    · cases argument <;> cases applied <;> exact hereditary.integer _
  | first =>
    rcases hereditary.arrayArgument parts applied with ⟨elements, good, eq⟩
    cases eq
    exact hereditary.element good fun element found => List.mem_of_head? found
  | last =>
    rcases hereditary.arrayArgument parts applied with ⟨elements, good, eq⟩
    cases eq
    exact hereditary.element good fun element found => List.mem_of_getLast? found
  | rest =>
    rcases hereditary.arrayArgument parts applied with ⟨elements, good, eq⟩
    cases elements with
    | nil =>
      cases eq
      exact hereditary.null
    | cons first others =>
      cases eq
      exact (hereditary.array_iff _).mpr fun element member => good element (.tail _ member)
  | push => exact hereditary.push parts applied
  | puts =>
    cases applied
    exact hereditary.null

end Hereditary

end Monkey
