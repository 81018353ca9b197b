import Mathlib.Data.List.Forall2
import Monkey.Builtin.Call
import Monkey.Object.Operator

/-!
# Congruences of objects

Operators, indexing and builtins look at the types of their operands, at operands
without parts, and at the parts of arrays and hashes. A relation that relates what is
seen in this way is not disturbed by any of them: related operands have related values
or fail with the same error.
-/

namespace Monkey

/-- Both end with related values, or both with the same error. -/
inductive Agrees {α : Type} (Rel : α → α → Prop) :
    Except RuntimeError α → Except RuntimeError α → Prop
  | ok {value other : α} : Rel value other → Agrees Rel (.ok value) (.ok other)
  | error (cause : RuntimeError) : Agrees Rel (.error cause) (.error cause)

namespace Agrees

variable {α β : Type} {Rel : α → α → Prop} {Later : β → β → Prop}
  {first other : Except RuntimeError α}

theorem refl (outcome : Except RuntimeError α) : Agrees (· = ·) outcome outcome := by
  cases outcome with
  | ok value => exact .ok rfl
  | error cause => exact .error cause

theorem bind {next behind : α → Except RuntimeError β} (agrees : Agrees Rel first other)
    (later : ∀ value result, Rel value result → Agrees Later (next value) (behind result)) :
    Agrees Later (first >>= next) (other >>= behind) := by
  cases agrees with
  | ok related => exact later _ _ related
  | error cause => exact .error cause

end Agrees

namespace Object

/-- What operators, indexing and builtins see of two objects is the same, but for parts,
which are related. -/
inductive Layer (Rel : Object → Object → Prop) : Object → Object → Prop
  | integer (value : Int64) : Layer Rel (.integer value) (.integer value)
  | boolean (value : Bool) : Layer Rel (.boolean value) (.boolean value)
  | null : Layer Rel .null .null
  | string (text : String) : Layer Rel (.string text) (.string text)
  | array {elements others : List Object} : List.Forall₂ Rel elements others →
      Layer Rel (.array elements) (.array others)
  /-- The values under a key are related, or none of the hashes has the key. -/
  | hash {entries others : Dictionary HashKey (Object × Object)} :
      (∀ slot, Option.Rel (fun pair other => Rel pair.2 other.2)
        (Dictionary.find? slot entries) (Dictionary.find? slot others)) →
      Layer Rel (.hash entries) (.hash others)
  | function (closure other : Closure) : Layer Rel (.function closure) (.function other)
  | builtin (primitive other : Builtin) : Layer Rel (.builtin primitive) (.builtin other)
  | returnValue (value other : Object) : Layer Rel (.returnValue value) (.returnValue other)
  | error (cause other : RuntimeError) : Layer Rel (.error cause) (.error other)

/-- A relation whose objects are seen alike, and that holds of all values that
operators, indexing and builtins can make of related parts. -/
structure Congruence (Rel : Object → Object → Prop) : Prop where
  layer : ∀ {object other}, Rel object other → Layer Rel object other
  integer : ∀ value, Rel (.integer value) (.integer value)
  boolean : ∀ value, Rel (.boolean value) (.boolean value)
  null : Rel .null .null
  string : ∀ text, Rel (.string text) (.string text)
  array : ∀ {elements others}, List.Forall₂ Rel elements others →
    Rel (.array elements) (.array others)
  error : ∀ cause, Rel (.error cause) (.error cause)

namespace Congruence

variable {Rel : Object → Object → Prop} {object other left otherLeft right otherRight : Object}

theorem type_eq (congruence : Congruence Rel) (related : Rel object other) :
    other.type = object.type := by
  cases congruence.layer related <;> rfl

theorem isTruthy_eq (congruence : Congruence Rel) (related : Rel object other) :
    other.isTruthy = object.isTruthy := by
  cases congruence.layer related <;> rfl

theorem hashKey_eq (congruence : Congruence Rel) (related : Rel object other) :
    other.hashKey = object.hashKey := by
  cases congruence.layer related <;> rfl

/-! ### Operators -/

theorem unary (congruence : Congruence Rel) (op : UnaryOp) (related : Rel object other) :
    Agrees Rel (op.apply object) (op.apply other) := by
  cases op with
  | not =>
    simp only [UnaryOp.apply, congruence.isTruthy_eq related]
    exact .ok (congruence.boolean _)
  | negate =>
    cases congruence.layer related with
    | integer value => exact .ok (congruence.integer _)
    | _ => exact .error _

theorem equality (congruence : Congruence Rel) (op : BinaryOp) (same : Bool)
    (otherwise : RuntimeError) :
    Agrees Rel ((op.equality? same).elim (.error otherwise) .ok)
      ((op.equality? same).elim (.error otherwise) .ok) := by
  cases op with
  | equal | notEqual => exact .ok (congruence.boolean _)
  | _ => exact .error _

theorem integers (congruence : Congruence Rel) (op : BinaryOp) (left right : Int64) :
    Agrees Rel (op.applyIntegers left right) (op.applyIntegers left right) := by
  cases op with
  | add | subtract | multiply => exact .ok (congruence.integer _)
  | divide =>
    simp only [BinaryOp.applyIntegers]
    split
    · exact .error _
    · exact .ok (congruence.integer _)
  | _ => exact .ok (congruence.boolean _)

theorem strings (congruence : Congruence Rel) (op : BinaryOp) (left right : String)
    (otherwise : RuntimeError) :
    Agrees Rel ((op.applyStrings? left right).elim (.error otherwise) .ok)
      ((op.applyStrings? left right).elim (.error otherwise) .ok) := by
  cases op with
  | add => exact .ok (congruence.string _)
  | equal | notEqual => exact .ok (congruence.boolean _)
  | _ => exact .error _

/-- A binary operator only looks at the types of its operands, or at operands
without parts. -/
theorem binary (congruence : Congruence Rel) (op : BinaryOp) (leftRelated : Rel left otherLeft)
    (rightRelated : Rel right otherRight) :
    Agrees Rel (op.apply left right) (op.apply otherLeft otherRight) := by
  have same : op.apply otherLeft otherRight = op.apply left right := by
    cases congruence.layer leftRelated <;> cases congruence.layer rightRelated <;> rfl
  rw [same]
  unfold BinaryOp.apply
  split
  · exact congruence.integers op _ _
  · exact congruence.strings op _ _ _
  · exact congruence.equality op _ _
  · exact congruence.equality op _ _
  · split
    · exact .error _
    · exact congruence.equality op _ _

theorem getD_null (congruence : Congruence Rel) {found behind : Option Object}
    (related : Option.Rel Rel found behind) : Rel (found.getD .null) (behind.getD .null) := by
  cases related with
  | none => exact congruence.null
  | some related => exact related

theorem elim_snd (congruence : Congruence Rel) {found behind : Option (Object × Object)}
    (related : Option.Rel (fun pair other => Rel pair.2 other.2) found behind) :
    Rel (found.elim Object.null Prod.snd) (behind.elim .null Prod.snd) := by
  cases related with
  | none => exact congruence.null
  | some related => exact related

theorem getElem? {elements others : List Object} (parts : List.Forall₂ Rel elements others)
    (position : Nat) : Option.Rel Rel elements[position]? others[position]? := by
  induction parts generalizing position with
  | nil => exact .none
  | cons first _ inductionHypothesis =>
    cases position with
    | zero => exact .some first
    | succ position => exact inductionHypothesis position

theorem index (congruence : Congruence Rel) (whole : Rel left otherLeft)
    (position : Rel right otherRight) :
    Agrees Rel (left.index right) (otherLeft.index otherRight) := by
  cases congruence.layer whole with
  | array parts =>
    cases congruence.layer position with
    | integer place =>
      simp only [Object.index]
      split
      · exact .ok congruence.null
      · exact .ok (congruence.getD_null (getElem? parts _))
    | _ => exact .error _
  | hash parts =>
    simp only [Object.index, congruence.hashKey_eq position]
    cases right.hashKey with
    | error cause => exact .error cause
    | ok slot => exact .ok (congruence.elim_snd (parts slot))
  | _ => exact .error _

/-! ### Builtins -/

variable {arguments others : List Object}

theorem oneArgument (related : List.Forall₂ Rel arguments others) :
    Agrees Rel (Builtin.oneArgument arguments) (Builtin.oneArgument others) := by
  cases related with
  | nil => exact .error _
  | cons first rest =>
    cases rest with
    | nil => exact .ok first
    | cons second rest =>
      simp only [Builtin.oneArgument, List.length_cons, rest.length_eq]
      exact .error _

theorem arrayArgument (congruence : Congruence Rel) (primitive : Builtin)
    (related : List.Forall₂ Rel arguments others) :
    Agrees (List.Forall₂ Rel) (Builtin.arrayArgument primitive arguments)
      (Builtin.arrayArgument primitive others) := by
  refine (oneArgument related).bind fun argument other related => ?_
  cases congruence.layer related with
  | array parts => exact .ok parts
  | _ => exact .error _

theorem push (congruence : Congruence Rel) (related : List.Forall₂ Rel arguments others) :
    Agrees Rel (Builtin.push.value arguments) (Builtin.push.value others) := by
  cases related with
  | nil => exact .error _
  | cons first rest =>
    have first := congruence.layer first
    cases rest with
    | nil => cases first <;> exact .error _
    | cons second rest =>
      cases rest with
      | nil =>
        cases first with
        | array parts =>
          exact .ok (congruence.array (List.rel_append parts (.cons second .nil)))
        | _ => exact .error _
      | cons third rest =>
        have count := rest.length_eq
        cases first <;>
          simp only [Builtin.value, List.length_cons, count] <;> exact .error _

/-- A builtin only looks into arrays. -/
theorem builtinValue (congruence : Congruence Rel) (primitive : Builtin)
    (related : List.Forall₂ Rel arguments others) :
    Agrees Rel (primitive.value arguments) (primitive.value others) := by
  cases primitive with
  | len =>
    refine (oneArgument related).bind fun argument other related => ?_
    cases congruence.layer related with
    | string text => exact .ok (congruence.integer _)
    | array parts =>
      simp only [parts.length_eq]
      exact .ok (congruence.integer _)
    | _ => exact .error _
  | first =>
    refine (congruence.arrayArgument .first related).bind fun elements others parts => .ok ?_
    simp only [List.head?_eq_getElem?]
    exact congruence.getD_null (getElem? parts 0)
  | last =>
    refine (congruence.arrayArgument .last related).bind fun elements others parts => .ok ?_
    simp only [List.getLast?_eq_getElem?, parts.length_eq]
    exact congruence.getD_null (getElem? parts _)
  | rest =>
    refine (congruence.arrayArgument .rest related).bind fun elements others parts => ?_
    cases parts with
    | nil => exact .ok congruence.null
    | cons _ rest => exact .ok (congruence.array rest)
  | push => exact congruence.push related
  | puts => exact .ok congruence.null

/-- What a builtin gives to the host is related. -/
theorem builtinCall (congruence : Congruence Rel) (primitive : Builtin)
    (related : List.Forall₂ Rel arguments others) :
    Rel (primitive.call arguments) (primitive.call others) := by
  have agrees := congruence.builtinValue primitive related
  unfold Builtin.call
  generalize primitive.value arguments = outcome at agrees ⊢
  generalize primitive.value others = behind at agrees ⊢
  cases agrees with
  | ok related => exact related
  | error cause => exact congruence.error cause

end Congruence

end Object

end Monkey
