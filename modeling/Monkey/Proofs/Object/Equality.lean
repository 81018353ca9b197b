import Mathlib.Data.List.Perm.Basic
import Monkey.Object.Equality
import Monkey.Proofs.Object.Congruence

/-!
# Equality of objects

Equality compares arrays place by place and hashes by their keys, whatever the order of
the entries; functions are equal if they are the same function. It is opened once, one
layer deep, by `beq_iff_matches`. Behind that, an induction on an object whose hashes
have distinct keys shows that equality is an equivalence. One hash is only searched for
the entries of the other, so symmetry rests on a count: hashes of the same length, of
which one has all the keys of the other, have the same keys.

Equal objects look alike to operators, indexing and builtins. The operators of the
language refuse to compare arrays, hashes and functions at all, and agree with equality
where they do not refuse.
-/

namespace Monkey

namespace Object

/-- Every hash among the parts of the object has one entry for each of its keys. -/
inductive WellFormed : Object → Prop
  | integer (value : Int64) : WellFormed (.integer value)
  | boolean (value : Bool) : WellFormed (.boolean value)
  | null : WellFormed .null
  | string (text : String) : WellFormed (.string text)
  | array {elements : List Object} (parts : ∀ element ∈ elements, WellFormed element) :
      WellFormed (.array elements)
  | hash {entries : Dictionary HashKey (Object × Object)}
      (distinct : (entries.map Prod.fst).Nodup)
      (keys : ∀ entry ∈ entries, WellFormed entry.2.1)
      (values : ∀ entry ∈ entries, WellFormed entry.2.2) : WellFormed (.hash entries)
  | function (closure : Closure) : WellFormed (.function closure)
  | builtin (primitive : Builtin) : WellFormed (.builtin primitive)
  | returnValue {value : Object} (inner : WellFormed value) : WellFormed (.returnValue value)
  | error (cause : RuntimeError) : WellFormed (.error cause)

/-! ## One layer of equality -/

/-- Every entry of a hash has an entry with the same key and equal objects in another. -/
def Includes (entries others : Dictionary HashKey (Object × Object)) : Prop :=
  ∀ entry ∈ entries, ∃ pair, Dictionary.find? entry.1 others = some pair ∧
    entry.2.1 == pair.1 ∧ entry.2.2 == pair.2

/-- Two objects without parts are the same; others have equal parts. -/
inductive Matches : Object → Object → Prop
  | integer (value : Int64) : Matches (.integer value) (.integer value)
  | boolean (value : Bool) : Matches (.boolean value) (.boolean value)
  | null : Matches .null .null
  | string (text : String) : Matches (.string text) (.string text)
  | array {elements others : List Object} :
      List.Forall₂ (fun element other => element == other) elements others →
      Matches (.array elements) (.array others)
  | hash {entries others : Dictionary HashKey (Object × Object)} :
      entries.length = others.length → Includes entries others →
      Matches (.hash entries) (.hash others)
  | function {closure other : Closure} : closure.identity = other.identity →
      Matches (.function closure) (.function other)
  | builtin (primitive : Builtin) : Matches (.builtin primitive) (.builtin primitive)
  | returnValue {value other : Object} : value == other →
      Matches (.returnValue value) (.returnValue other)
  | error (cause : RuntimeError) : Matches (.error cause) (.error cause)

theorem sameElements_iff {elements others : List Object} :
    sameElements elements others = true ↔
      List.Forall₂ (fun element other => element == other) elements others := by
  induction elements generalizing others with
  | nil => cases others <;> simp [sameElements]
  | cons element elements inductionHypothesis =>
    cases others with
    | nil => simp [sameElements]
    | cons other others =>
      rw [sameElements, Bool.and_eq_true, inductionHypothesis, List.forall₂_cons]
      exact Iff.rfl

theorem included_iff {entries others : Dictionary HashKey (Object × Object)} :
    included entries others = true ↔ Includes entries others := by
  induction entries with
  | nil => simp [included, Includes]
  | cons entry entries inductionHypothesis =>
    rcases entry with ⟨slot, key, value⟩
    rw [included, Bool.and_eq_true, inductionHypothesis, Includes, Includes, List.forall_mem_cons]
    refine and_congr_left fun _ => ?_
    cases Dictionary.find? slot others with
    | none => simp
    | some pair => simp [BEq.beq]

theorem beq_iff_matches {object other : Object} : object == other ↔ Matches object other := by
  constructor
  · intro equal
    change object.same other = true at equal
    unfold same at equal
    split at equal
    case h_3 => exact .null
    case h_5 => exact .array (sameElements_iff.mp equal)
    case h_6 =>
      rw [Bool.and_eq_true] at equal
      exact .hash (beq_iff_eq.mp equal.1) (included_iff.mp equal.2)
    case h_7 => exact .function (beq_iff_eq.mp equal)
    case h_9 => exact .returnValue equal
    case h_11 => contradiction
    all_goals
      rw [beq_iff_eq] at equal
      subst equal
      constructor
  · intro layer
    cases layer with
    | integer value | boolean value | string value | builtin value | error value =>
      exact beq_self_eq_true value
    | null => rfl
    | array parts => exact sameElements_iff.mpr parts
    | hash length parts =>
      exact Bool.and_eq_true_iff.mpr ⟨beq_iff_eq.mpr length, included_iff.mpr parts⟩
    | function identity => exact decide_eq_true identity
    | returnValue equal => exact equal

/-! ## Equality is an equivalence -/

section Arrays

variable {elements others lasts : List Object}

/-- What relates objects at the same places of two lists may depend on the lists. -/
theorem forall₂_imp_of_mem {Rel Larger : Object → Object → Prop}
    (parts : List.Forall₂ Rel elements others)
    (le : ∀ element ∈ elements, ∀ other ∈ others, Rel element other → Larger element other) :
    List.Forall₂ Larger elements others := by
  induction parts with
  | nil => exact .nil
  | cons related _ inductionHypothesis =>
    refine .cons (le _ (.head _) _ (.head _) related) (inductionHypothesis ?_)
    exact fun element member other inside => le element (.tail _ member) other (.tail _ inside)

/-- It is enough that equality is transitive at the elements of the first list. -/
theorem forall₂_chain
    (first : List.Forall₂ (fun element other => element == other) elements others)
    (second : List.Forall₂ (fun other last => other == last) others lasts)
    (chain : ∀ element ∈ elements, ∀ other last, element == other → other == last →
      element == last) :
    List.Forall₂ (fun element last => element == last) elements lasts := by
  induction first generalizing lasts with
  | nil => exact second
  | cons equal _ inductionHypothesis =>
    cases second with
    | cons next rest =>
      refine .cons (chain _ (.head _) _ _ equal next) (inductionHypothesis rest ?_)
      exact fun element member => chain element (.tail _ member)

end Arrays

section Hashes

variable {entries others : Dictionary HashKey (Object × Object)}

/-- If a hash is included in one of the same length, then both have the same keys. -/
theorem Includes.keys_subset (includes : Includes entries others)
    (distinct : (entries.map Prod.fst).Nodup) (length : entries.length = others.length) :
    others.map Prod.fst ⊆ entries.map Prod.fst := by
  have subset : entries.map Prod.fst ⊆ others.map Prod.fst := by
    intro slot member
    rcases List.mem_map.mp member with ⟨entry, inside, rfl⟩
    rcases includes entry inside with ⟨pair, found, -⟩
    exact List.mem_map.mpr ⟨_, Dictionary.mem_of_find?_eq_some found, rfl⟩
  have le : (others.map Prod.fst).length ≤ (entries.map Prod.fst).length := by
    rw [List.length_map, List.length_map]
    exact Nat.le_of_eq length.symm
  exact ((List.subperm_of_subset distinct subset).perm_of_length_le le).symm.subset

/-- Each key of one of two equal hashes has equal objects in both. -/
theorem Includes.exists_of_mem (includes : Includes entries others)
    (distinct : (entries.map Prod.fst).Nodup) (otherDistinct : (others.map Prod.fst).Nodup)
    (length : entries.length = others.length) {entry : HashKey × (Object × Object)}
    (member : entry ∈ others) :
    ∃ pair, (entry.1, pair) ∈ entries ∧ pair.1 == entry.2.1 ∧ pair.2 == entry.2.2 := by
  have key := includes.keys_subset distinct length (List.mem_map_of_mem member)
  rcases List.mem_map.mp key with ⟨⟨slot, pair⟩, inside, rfl⟩
  rcases includes _ inside with ⟨twin, found, equal⟩
  rw [Dictionary.find?_of_mem otherDistinct member] at found
  cases found
  exact ⟨pair, inside, equal⟩

end Hashes

/-- An object whose hashes are well formed equals itself. -/
theorem WellFormed.beq_self {object : Object} (wellFormed : object.WellFormed) :
    object == object := by
  rw [beq_iff_matches]
  induction wellFormed with
  | integer value => exact .integer value
  | boolean value => exact .boolean value
  | null => exact .null
  | string text => exact .string text
  | array _ equal =>
    exact .array (List.forall₂_same.mpr fun element member =>
      beq_iff_matches.mpr (equal element member))
  | hash distinct _ _ keys values =>
    refine .hash rfl fun entry member => ⟨entry.2, Dictionary.find?_of_mem distinct member, ?_⟩
    exact ⟨beq_iff_matches.mpr (keys entry member), beq_iff_matches.mpr (values entry member)⟩
  | function closure => exact .function rfl
  | builtin primitive => exact .builtin primitive
  | returnValue _ equal => exact .returnValue (beq_iff_matches.mpr equal)
  | error cause => exact .error cause

/-- Equality is symmetric. Hashes need a count: inclusion is checked in one direction
only. -/
theorem WellFormed.beq_symm {object other : Object} (wellFormed : object.WellFormed)
    (otherWellFormed : other.WellFormed) (equal : object == other) : other == object := by
  induction wellFormed generalizing other with
  | array _ symmetric =>
    cases beq_iff_matches.mp equal with
    | array parts =>
      cases otherWellFormed with
      | array otherParts =>
        refine beq_iff_matches.mpr (.array (forall₂_imp_of_mem parts ?_).flip)
        exact fun element member other inside =>
          symmetric element member (otherParts other inside)
  | hash distinct _ _ keys values =>
    cases beq_iff_matches.mp equal with
    | hash length includes =>
      cases otherWellFormed with
      | hash otherDistinct otherKeys otherValues =>
        refine beq_iff_matches.mpr (.hash length.symm fun entry member => ?_)
        rcases includes.exists_of_mem distinct otherDistinct length member with
          ⟨pair, inside, key, value⟩
        exact ⟨pair, Dictionary.find?_of_mem distinct inside,
          keys _ inside (otherKeys entry member) key,
          values _ inside (otherValues entry member) value⟩
  | returnValue _ symmetric =>
    cases beq_iff_matches.mp equal with
    | returnValue inner =>
      cases otherWellFormed with
      | returnValue otherInner => exact symmetric otherInner inner
  | function closure =>
    cases beq_iff_matches.mp equal with
    | function identity => exact beq_iff_matches.mpr (.function identity.symm)
  | _ =>
    cases beq_iff_matches.mp equal
    exact equal

/-- Equality is transitive. Only the first object needs to be well formed, as it is
searched for in the middle one, and that in the last. -/
theorem WellFormed.beq_trans {object middle other : Object} (wellFormed : object.WellFormed)
    (first : object == middle) (second : middle == other) : object == other := by
  induction wellFormed generalizing middle other with
  | array _ transitive =>
    cases beq_iff_matches.mp first with
    | array parts =>
      cases beq_iff_matches.mp second with
      | array otherParts =>
        refine beq_iff_matches.mpr (.array (forall₂_chain parts otherParts ?_))
        exact fun element member _ _ => transitive element member
  | hash distinct _ _ keys values =>
    cases beq_iff_matches.mp first with
    | hash length includes =>
      cases beq_iff_matches.mp second with
      | hash otherLength otherIncludes =>
        refine beq_iff_matches.mpr (.hash (length.trans otherLength) fun entry member => ?_)
        rcases includes entry member with ⟨pair, found, key, value⟩
        rcases otherIncludes _ (Dictionary.mem_of_find?_eq_some found) with
          ⟨last, foundLast, lastKey, lastValue⟩
        exact ⟨last, foundLast, keys entry member key lastKey, values entry member value lastValue⟩
  | returnValue _ transitive =>
    cases beq_iff_matches.mp first with
    | returnValue inner =>
      cases beq_iff_matches.mp second with
      | returnValue otherInner =>
        exact beq_iff_matches.mpr (.returnValue (transitive inner otherInner))
  | function closure =>
    cases beq_iff_matches.mp first with
    | function identity =>
      cases beq_iff_matches.mp second with
      | function otherIdentity =>
        exact beq_iff_matches.mpr (.function (identity.trans otherIdentity))
  | _ =>
    cases beq_iff_matches.mp first
    exact second

/-! ## Equality is a congruence -/

/-- Two objects whose hashes are well formed are equal. -/
structure Equates (object other : Object) : Prop where
  left : object.WellFormed
  right : other.WellFormed
  equal : object == other

/-- Under each key, two equal hashes have equal values or none. -/
theorem Equates.find? {entries others : Dictionary HashKey (Object × Object)}
    (equates : (Object.hash entries).Equates (.hash others)) (slot : HashKey) :
    Option.Rel (fun pair other => pair.2.Equates other.2)
      (Dictionary.find? slot entries) (Dictionary.find? slot others) := by
  rcases equates with ⟨_ | _ | _ | _ | _ | ⟨distinct, -, values⟩,
    _ | _ | _ | _ | _ | ⟨otherDistinct, -, otherValues⟩, equal⟩
  cases beq_iff_matches.mp equal with
  | hash length includes =>
    cases found : Dictionary.find? slot entries with
    | some pair =>
      have member := Dictionary.mem_of_find?_eq_some found
      rcases includes _ member with ⟨twin, foundTwin, -, value⟩
      rw [foundTwin]
      exact .some ⟨values _ member,
        otherValues _ (Dictionary.mem_of_find?_eq_some foundTwin), value⟩
    | none =>
      cases foundOther : Dictionary.find? slot others with
      | none => exact .none
      | some twin =>
        have member := Dictionary.mem_of_find?_eq_some foundOther
        rcases includes.exists_of_mem distinct otherDistinct length member with ⟨pair, inside, -⟩
        rw [Dictionary.find?_of_mem distinct inside] at found
        cases found

theorem Equates.refl {object : Object} (wellFormed : object.WellFormed) : object.Equates object :=
  ⟨wellFormed, wellFormed, wellFormed.beq_self⟩

/-- Two arrays are equal if they have equal elements at the same places. -/
theorem equates_array_iff {elements others : List Object} :
    (Object.array elements).Equates (.array others) ↔ List.Forall₂ Equates elements others := by
  constructor
  · rintro ⟨_ | _ | _ | _ | parts, _ | _ | _ | _ | otherParts, equal⟩
    cases beq_iff_matches.mp equal with
    | array equals =>
      refine forall₂_imp_of_mem equals ?_
      exact fun element member other inside equal =>
        ⟨parts element member, otherParts other inside, equal⟩
  · intro parts
    have turned : List.Forall₂ (flip Equates) others elements := List.Forall₂.flip parts
    have left := (List.forall₂_and_left elements others).mp
      (parts.imp fun _ _ equates => ⟨equates.left, equates⟩)
    have right := (List.forall₂_and_left others elements).mp
      (turned.imp fun _ _ equates => ⟨equates.right, equates⟩)
    have equals := parts.imp fun _ _ equates => equates.equal
    exact ⟨.array left.1, .array right.1, beq_iff_matches.mpr (.array equals)⟩

/-- No operator, and no builtin, tells equal objects apart. -/
theorem congruence_equates : Congruence Equates where
  layer := by
    rintro object other equates
    cases beq_iff_matches.mp equates.equal with
    | integer value => exact .integer value
    | boolean value => exact .boolean value
    | null => exact .null
    | string text => exact .string text
    | array => exact .array (equates_array_iff.mp equates)
    | hash => exact .hash equates.find?
    | function => exact .function _ _
    | builtin => exact .builtin _ _
    | returnValue => exact .returnValue _ _
    | error => exact .error _ _
  integer value := .refl (.integer value)
  boolean value := .refl (.boolean value)
  null := .refl .null
  string text := .refl (.string text)
  array := equates_array_iff.mpr
  error cause := .refl (.error cause)

/-- Equality of objects whose hashes are well formed is reflexive, symmetric and
transitive. Equal objects have the same hash key, or none for the same reason, and are
equally true; operators, indexing and builtins have equal values for them, or fail with the
same error. All but `puts` write the same. -/
theorem equates_congruent :
    (Equivalence fun object other : {object : Object // object.WellFormed} =>
      (object.val == other.val) = true) ∧
    (∀ object other : Object, object.Equates other →
      other.hashKey = object.hashKey ∧ other.isTruthy = object.isTruthy ∧
      ∀ op : UnaryOp, Agrees Equates (op.apply object) (op.apply other)) ∧
    (∀ left otherLeft right otherRight : Object,
      left.Equates otherLeft → right.Equates otherRight →
        (∀ op : BinaryOp, Agrees Equates (op.apply left right) (op.apply otherLeft otherRight)) ∧
        Agrees Equates (left.index right) (otherLeft.index otherRight)) ∧
    ∀ (primitive : Builtin) (arguments others : List Object),
      List.Forall₂ Equates arguments others →
        (primitive.call arguments).Equates (primitive.call others) ∧
        (primitive ≠ .puts → primitive.written others = primitive.written arguments) := by
  refine ⟨?equivalence, ?single, ?double, ?builtins⟩
  case equivalence =>
    constructor
    · exact fun object => object.property.beq_self
    · exact fun {object other} => object.property.beq_symm other.property
    · exact fun {object _ _} => object.property.beq_trans
  case single =>
    intro object other equates
    exact ⟨congruence_equates.hashKey_eq equates, congruence_equates.isTruthy_eq equates,
      fun op => congruence_equates.unary op equates⟩
  case double =>
    intro left otherLeft right otherRight whole position
    exact ⟨fun op => congruence_equates.binary op whole position,
      congruence_equates.index whole position⟩
  case builtins =>
    intro primitive arguments others equates
    refine ⟨congruence_equates.builtinCall primitive equates, fun silent => ?_⟩
    cases primitive with
    | puts => exact absurd rfl silent
    | _ => rfl

/-- A hash with an integer and a boolean as its keys. -/
def paired : Object :=
  .hash [(⟨.integer, 1⟩, (.integer 1, .string "one")), (⟨.boolean, 1⟩, (.boolean true, .null))]

/-- The same entries in another order. -/
def repaired : Object :=
  .hash [(⟨.boolean, 1⟩, (.boolean true, .null)), (⟨.integer, 1⟩, (.integer 1, .string "one"))]

theorem equates_congruent_of_repaired :
    (Object.array [repaired] == Object.array [paired]) = true ∧
    Agrees Equates (paired.index (.integer 1)) (repaired.index (.integer 1)) ∧
    (Builtin.first.call [.array [paired]]).Equates (Builtin.first.call [.array [repaired]]) := by
  have wellFormed : paired.WellFormed := by
    refine .hash (by decide) ?_ ?_ <;>
      simp only [List.forall_mem_cons, List.not_mem_nil, false_implies, implies_true, and_true]
    · exact ⟨.integer 1, .boolean true⟩
    · exact ⟨.string "one", .null⟩
  have otherWellFormed : repaired.WellFormed := by
    refine .hash (by decide) ?_ ?_ <;>
      simp only [List.forall_mem_cons, List.not_mem_nil, false_implies, implies_true, and_true]
    · exact ⟨.boolean true, .integer 1⟩
    · exact ⟨.null, .string "one"⟩
  have equates : paired.Equates repaired := ⟨wellFormed, otherWellFormed, rfl⟩
  have arrays := equates_array_iff.mpr (.cons equates .nil)
  obtain ⟨equivalence, -, operators, builtins⟩ := equates_congruent
  have turned := @Equivalence.symm _ _ equivalence ⟨_, arrays.left⟩ ⟨_, arrays.right⟩ arrays.equal
  have index := (operators _ _ _ _ equates (.refl (.integer 1))).2
  exact ⟨turned, index, (builtins .first _ _ (.cons arrays .nil)).1⟩

theorem type_eq_of_beq {object other : Object} (equal : object == other) :
    object.type = other.type := by
  cases beq_iff_matches.mp equal <;> rfl

theorem beq_of_type_ne {object other : Object} (ne : object.type ≠ other.type) :
    (object == other) = false :=
  Bool.eq_false_iff.mpr fun equal => ne (type_eq_of_beq equal)

end Object

/-! ## Comparison by operators -/

/-- The types of which no two objects can be compared. -/
def ObjectType.incomparable : List ObjectType :=
  [.array, .hash, .function, .builtin, .returnValue, .error]

/-- Objects that can be compared have no parts. -/
theorem Object.wellFormed_of_comparable {object : Object}
    (comparable : object.type ∉ ObjectType.incomparable) : object.WellFormed := by
  cases object with
  | integer value => exact .integer value
  | boolean value => exact .boolean value
  | null => exact .null
  | string text => exact .string text
  | _ => simp [Object.type, ObjectType.incomparable] at comparable

namespace BinaryOp

variable {left right : Object}

theorem apply_of_type_ne (op : BinaryOp) (ne : left.type ≠ right.type) :
    op.apply left right =
      (op.equality? false).elim (.error (.typeMismatch left.type op right.type)) .ok := by
  unfold BinaryOp.apply
  split
  case h_5 => rw [if_neg ne]
  all_goals exact absurd rfl ne

theorem apply_of_incomparable (op : BinaryOp) (same : left.type = right.type)
    (incomparable : left.type ∈ ObjectType.incomparable) :
    op.apply left right = .error (.unknownBinary left.type op right.type) := by
  unfold BinaryOp.apply
  split
  case h_5 => rw [if_pos same]
  all_goals simp [Object.type, ObjectType.incomparable] at incomparable

/-- Two objects of one type that can be compared are compared by value. -/
theorem apply_of_comparable {op : BinaryOp} {answer : Object}
    (asks : op.equality? (left == right) = some answer) (same : left.type = right.type)
    (comparable : left.type ∉ ObjectType.incomparable) : op.apply left right = .ok answer := by
  cases left with
  | integer | boolean | string =>
    cases right <;> cases same
    cases op <;> cases asks <;> rfl
  | null =>
    cases right <;> cases same
    cases op <;> cases asks <;> rfl
  | _ => simp [Object.type, ObjectType.incomparable] at comparable

/-- An operator that asks for equality compares by value what can be compared, and fails
on nothing else but two objects of one type that cannot. -/
theorem apply_of_equality? {op : BinaryOp} {answer : Object}
    (asks : op.equality? (left == right) = some answer) :
    op.apply left right =
      if left.type = right.type ∧ left.type ∈ ObjectType.incomparable then
        .error (.unknownBinary left.type op right.type)
      else .ok answer := by
  by_cases same : left.type = right.type
  · by_cases incomparable : left.type ∈ ObjectType.incomparable
    · rw [if_pos ⟨same, incomparable⟩, apply_of_incomparable op same incomparable]
    · rw [if_neg fun both => incomparable both.2, apply_of_comparable asks same incomparable]
  · rw [Object.beq_of_type_ne same] at asks
    rw [if_neg fun both => same both.1, apply_of_type_ne op same, asks]
    rfl

theorem beq_comm_of_comparable
    (comparable : ¬ (left.type = right.type ∧ left.type ∈ ObjectType.incomparable)) :
    (right == left) = (left == right) := by
  by_cases same : left.type = right.type
  · have leftWellFormed := Object.wellFormed_of_comparable fun inside => comparable ⟨same, inside⟩
    have rightWellFormed := Object.wellFormed_of_comparable fun inside =>
      comparable ⟨same, same ▸ inside⟩
    rw [Bool.eq_iff_iff]
    exact ⟨rightWellFormed.beq_symm leftWellFormed, leftWellFormed.beq_symm rightWellFormed⟩
  · rw [Object.beq_of_type_ne same, Object.beq_of_type_ne (Ne.symm same)]

/-- The order of the objects does not matter to an operator that asks for equality. -/
theorem apply_comm_of_equality? {op : BinaryOp} {answer : Bool → Object}
    (asks : ∀ same, op.equality? same = some (answer same)) (left right : Object) :
    op.apply right left = op.apply left right := by
  rw [apply_of_equality? (asks _), apply_of_equality? (asks _)]
  by_cases both : left.type = right.type ∧ left.type ∈ ObjectType.incomparable
  · have turned : right.type = left.type ∧ right.type ∈ ObjectType.incomparable :=
      ⟨both.1.symm, both.1 ▸ both.2⟩
    rw [if_pos both, if_pos turned, both.1]
  · have turned : ¬ (right.type = left.type ∧ right.type ∈ ObjectType.incomparable) :=
      fun turned => both ⟨turned.1.symm, turned.1 ▸ turned.2⟩
    rw [if_neg both, if_neg turned, beq_comm_of_comparable both]

/-- The operators for equality fail on two objects of one type that cannot be compared,
and on nothing else. Otherwise they tell whether the objects are equal. The order of the
objects does not matter. -/
theorem equality_agrees (left right : Object) :
    BinaryOp.equal.apply left right =
      (if left.type = right.type ∧ left.type ∈ ObjectType.incomparable then
        .error (.unknownBinary left.type .equal right.type)
      else .ok (.boolean (left == right))) ∧
    BinaryOp.notEqual.apply left right =
      (if left.type = right.type ∧ left.type ∈ ObjectType.incomparable then
        .error (.unknownBinary left.type .notEqual right.type)
      else .ok (.boolean (left != right))) ∧
    BinaryOp.equal.apply right left = BinaryOp.equal.apply left right ∧
    BinaryOp.notEqual.apply right left = BinaryOp.notEqual.apply left right := by
  have equal : ∀ same, BinaryOp.equal.equality? same = some (.boolean same) := fun _ => rfl
  have notEqual : ∀ same, BinaryOp.notEqual.equality? same = some (.boolean !same) := fun _ => rfl
  exact ⟨apply_of_equality? (equal _), apply_of_equality? (notEqual _),
    apply_comm_of_equality? equal left right, apply_comm_of_equality? notEqual left right⟩

/-- Null is not an array, but an array cannot be compared even with itself. -/
example :
    BinaryOp.equal.apply .null (.array []) = .ok (.boolean false) ∧
    BinaryOp.equal.apply (.array []) (.array []) =
      .error (.unknownBinary .array .equal .array) :=
  ⟨rfl, rfl⟩

end BinaryOp

end Monkey
