import Monkey.Proofs.Object.Congruence

/-!
# Objects that are alike

Two objects are alike if they are made of the same parts in the same way, except
that their closures only have to be related. No operator and no builtin looks into
a closure: alike operands have alike values or fail with the same error.
-/

namespace Monkey

/-! ## Alike dictionaries -/

namespace Dictionary

variable {κ α : Type}

/-- The same keys in the same order, with related values. -/
def Alike (Rel : α → α → Prop) : Dictionary κ α → Dictionary κ α → Prop :=
  List.Forall₂ fun entry other => entry.1 = other.1 ∧ Rel entry.2 other.2

variable {Rel : α → α → Prop} {dictionary other : Dictionary κ α}

theorem Alike.mono {Larger : α → α → Prop} (le : ∀ value behind, Rel value behind →
    Larger value behind) (alike : Alike Rel dictionary other) : Alike Larger dictionary other :=
  alike.imp fun _ _ related => ⟨related.1, le _ _ related.2⟩

theorem Alike.eq (same : ∀ value behind, Rel value behind → behind = value)
    (alike : Alike Rel dictionary other) : other = dictionary := by
  induction alike with
  | nil => rfl
  | @cons entry behind _ _ related _ inductionHypothesis =>
    have entries : behind = entry := Prod.ext related.1.symm (same _ _ related.2)
    rw [entries, inductionHypothesis]

theorem Alike.exists_of_mem (alike : Alike Rel dictionary other) {entry : κ × α}
    (member : entry ∈ dictionary) : ∃ twin, Rel entry.2 twin := by
  induction alike with
  | nil => cases member
  | @cons first twin _ _ related _ inductionHypothesis =>
    rcases List.mem_cons.mp member with rfl | member
    · exact ⟨twin.2, related.2⟩
    · exact inductionHypothesis member

variable [DecidableEq κ]

theorem Alike.find? (key : κ) (alike : Alike Rel dictionary other) :
    Option.Rel Rel (Dictionary.find? key dictionary) (Dictionary.find? key other) := by
  induction alike with
  | nil => exact .none
  | @cons entry behind _ _ related _ inductionHypothesis =>
    rcases entry with ⟨found, value⟩
    rcases behind with ⟨_, later⟩
    rcases related with ⟨rfl, related⟩
    by_cases same : found = key
    · simpa only [Dictionary.find?, if_pos same] using .some related
    · simpa only [Dictionary.find?, if_neg same] using inductionHypothesis

theorem Alike.insert {value later : α} (key : κ) (related : Rel value later)
    (alike : Alike Rel dictionary other) :
    Alike Rel (Dictionary.insert key value dictionary) (Dictionary.insert key later other) := by
  induction alike with
  | nil => exact .cons ⟨rfl, related⟩ .nil
  | @cons entry behind _ _ first rest inductionHypothesis =>
    rcases entry with ⟨found, value⟩
    rcases behind with ⟨_, later⟩
    rcases first with ⟨rfl, first⟩
    by_cases same : found = key
    · simpa only [Dictionary.insert, if_pos same] using .cons ⟨rfl, related⟩ rest
    · simpa only [Dictionary.insert, if_neg same] using .cons ⟨rfl, first⟩ inductionHypothesis

/-- Dictionaries that are made of the same keys and related values. -/
theorem Alike.ofList_zip {values others : List α} (related : List.Forall₂ Rel values others)
    (keys : List κ) :
    Alike Rel (Dictionary.ofList (keys.zip values)) (Dictionary.ofList (keys.zip others)) := by
  have inserted (dictionary other : Dictionary κ α) (alike : Alike Rel dictionary other) :
      Alike Rel
        ((keys.zip values).foldl (fun dictionary pair => Dictionary.insert pair.1 pair.2 dictionary)
          dictionary)
        ((keys.zip others).foldl (fun dictionary pair => Dictionary.insert pair.1 pair.2 dictionary)
          other) := by
    induction related generalizing keys dictionary other with
    | nil => simpa using alike
    | cons first _ inductionHypothesis =>
      cases keys with
      | nil => exact alike
      | cons key keys =>
        simp only [List.zip_cons_cons, List.foldl_cons]
        exact inductionHypothesis keys _ _ (alike.insert key first)
  exact inserted [] [] .nil

end Dictionary

/-! ## Alike objects -/

mutual

/-- The objects are made of the same parts in the same way, but for closures, which
are related. -/
inductive Object.Alike (Rel : Closure → Closure → Prop) : Object → Object → Prop
  | integer (value : Int64) : Alike Rel (.integer value) (.integer value)
  | boolean (value : Bool) : Alike Rel (.boolean value) (.boolean value)
  | null : Alike Rel .null .null
  | string (text : String) : Alike Rel (.string text) (.string text)
  | array {elements others : List Object} : List.Forall₂ (Alike Rel) elements others →
      Alike Rel (.array elements) (.array others)
  | hash {entries others : Dictionary HashKey (Object × Object)} :
      List.Forall₂ (EntryAlike Rel) entries others → Alike Rel (.hash entries) (.hash others)
  | function {closure other : Closure} : Rel closure other →
      Alike Rel (.function closure) (.function other)
  | builtin (primitive : Builtin) : Alike Rel (.builtin primitive) (.builtin primitive)
  | returnValue {value other : Object} : Alike Rel value other →
      Alike Rel (.returnValue value) (.returnValue other)
  | error (cause : RuntimeError) : Alike Rel (.error cause) (.error cause)

/-- Two entries of hashes have the same slot, and keys and values that are alike. -/
inductive Object.EntryAlike (Rel : Closure → Closure → Prop) :
    HashKey × (Object × Object) → HashKey × (Object × Object) → Prop
  | mk (slot : HashKey) {key otherKey value otherValue : Object} : Alike Rel key otherKey →
      Alike Rel value otherValue →
      EntryAlike Rel (slot, (key, value)) (slot, (otherKey, otherValue))

end

namespace Object

/-- A key and a value of a hash are alike those of another. -/
def PairAlike (Rel : Closure → Closure → Prop) (pair other : Object × Object) : Prop :=
  pair.1.Alike Rel other.1 ∧ pair.2.Alike Rel other.2

theorem alike_hash_iff {Rel : Closure → Closure → Prop}
    {entries others : Dictionary HashKey (Object × Object)} :
    (Object.hash entries).Alike Rel (.hash others) ↔
      Dictionary.Alike (PairAlike Rel) entries others := by
  have entry : EntryAlike Rel = fun entry other => entry.1 = other.1 ∧
      PairAlike Rel entry.2 other.2 := by
    funext ⟨slot, key, value⟩ ⟨otherSlot, otherKey, otherValue⟩
    apply propext
    constructor
    · rintro ⟨_, keys, values⟩
      exact ⟨rfl, keys, values⟩
    · rintro ⟨rfl, keys, values⟩
      exact .mk slot keys values
  rw [Dictionary.Alike, ← entry]
  constructor
  · rintro ⟨⟩
    assumption
  · exact .hash

/-- Related closures have the same parameters and the same body. -/
def KeepsText (Rel : Closure → Closure → Prop) : Prop :=
  ∀ closure other, Rel closure other →
    other.parameters = closure.parameters ∧ other.body = closure.body

namespace Alike

variable {Rel Larger : Closure → Closure → Prop}

mutual

/-- Closures may be related more loosely. -/
theorem mono (le : ∀ closure other, Rel closure other → Larger closure other) :
    ∀ {object other : Object}, object.Alike Rel other → object.Alike Larger other
  | _, _, .integer value => .integer value
  | _, _, .boolean value => .boolean value
  | _, _, .null => .null
  | _, _, .string text => .string text
  | _, _, .array parts => .array (monoList le parts)
  | _, _, .hash parts => .hash (monoEntries le parts)
  | _, _, .function related => .function (le _ _ related)
  | _, _, .builtin primitive => .builtin primitive
  | _, _, .returnValue value => .returnValue (mono le value)
  | _, _, .error cause => .error cause

theorem monoList (le : ∀ closure other, Rel closure other → Larger closure other) :
    ∀ {elements others : List Object}, List.Forall₂ (Alike Rel) elements others →
      List.Forall₂ (Alike Larger) elements others
  | _, _, .nil => .nil
  | _, _, .cons first rest => .cons (mono le first) (monoList le rest)

theorem monoEntries (le : ∀ closure other, Rel closure other → Larger closure other) :
    ∀ {entries others : Dictionary HashKey (Object × Object)},
      List.Forall₂ (EntryAlike Rel) entries others → List.Forall₂ (EntryAlike Larger) entries others
  | _, _, .nil => .nil
  | _, _, .cons (.mk slot key value) rest =>
      .cons (.mk slot (mono le key) (mono le value)) (monoEntries le rest)

end

mutual

/-- Every object is like itself if every closure is related to itself. -/
theorem refl (related : ∀ closure, Rel closure closure) : ∀ object : Object,
    object.Alike Rel object
  | .integer value => .integer value
  | .boolean value => .boolean value
  | .null => .null
  | .string text => .string text
  | .array elements => .array (reflList related elements)
  | .hash entries => .hash (reflEntries related entries)
  | .function closure => .function (related closure)
  | .builtin primitive => .builtin primitive
  | .returnValue value => .returnValue (refl related value)
  | .error cause => .error cause

theorem reflList (related : ∀ closure, Rel closure closure) : ∀ elements : List Object,
    List.Forall₂ (Alike Rel) elements elements
  | [] => .nil
  | first :: rest => .cons (refl related first) (reflList related rest)

theorem reflEntries (related : ∀ closure, Rel closure closure) :
    ∀ entries : List (HashKey × (Object × Object)),
      List.Forall₂ (EntryAlike Rel) entries entries
  | [] => .nil
  | (slot, (key, value)) :: rest =>
      .cons (.mk slot (refl related key) (refl related value)) (reflEntries related rest)

end

mutual

/-- Alike objects are the same if related closures are. -/
theorem eq (same : ∀ closure other, Rel closure other → other = closure) :
    ∀ {object other : Object}, object.Alike Rel other → other = object
  | _, _, .integer _ | _, _, .boolean _ | _, _, .null | _, _, .string _ | _, _, .builtin _
  | _, _, .error _ => rfl
  | _, _, .array parts => by rw [eqList same parts]
  | _, _, .hash parts => by rw [eqEntries same parts]
  | _, _, .function related => by rw [same _ _ related]
  | _, _, .returnValue value => by rw [eq same value]

theorem eqList (same : ∀ closure other, Rel closure other → other = closure) :
    ∀ {elements others : List Object}, List.Forall₂ (Alike Rel) elements others →
      others = elements
  | _, _, .nil => rfl
  | _, _, .cons first rest => by rw [eq same first, eqList same rest]

theorem eqEntries (same : ∀ closure other, Rel closure other → other = closure) :
    ∀ {entries others : Dictionary HashKey (Object × Object)},
      List.Forall₂ (EntryAlike Rel) entries others → others = entries
  | _, _, .nil => rfl
  | _, _, .cons (.mk _ key value) rest => by
      rw [eq same key, eq same value, eqEntries same rest]

end

mutual

/-- Alike objects are shown alike if related closures have the same text. -/
theorem inspect_eq (text : KeepsText Rel) : ∀ {object other : Object}, object.Alike Rel other →
    other.inspect = object.inspect
  | _, _, .integer _ | _, _, .boolean _ | _, _, .null | _, _, .string _ | _, _, .builtin _
  | _, _, .error _ => rfl
  | _, _, .array parts => by rw [inspect_array, inspect_array, inspectElements_eq text parts]
  | _, _, .hash parts => by rw [inspect_hash, inspect_hash, inspectEntries_eq text parts]
  | _, _, .function related => by
      rw [inspect_function, inspect_function, (text _ _ related).1, (text _ _ related).2]
  | _, _, .returnValue value => by
      rw [inspect_returnValue, inspect_returnValue, inspect_eq text value]

theorem inspectElements_eq (text : KeepsText Rel) : ∀ {elements others : List Object},
    List.Forall₂ (Alike Rel) elements others → inspectElements others = inspectElements elements
  | _, _, .nil => rfl
  | _, _, .cons first rest => by
      rw [inspectElements_cons, inspectElements_cons, inspect_eq text first,
        inspectElements_eq text rest]

theorem inspectEntries_eq (text : KeepsText Rel) :
    ∀ {entries others : Dictionary HashKey (Object × Object)},
      List.Forall₂ (EntryAlike Rel) entries others → inspectEntries others = inspectEntries entries
  | _, _, .nil => rfl
  | _, _, .cons (.mk _ key value) rest => by
      rw [inspectEntries_cons, inspectEntries_cons, inspect_eq text key, inspect_eq text value,
        inspectEntries_eq text rest]

end

variable {object other left otherLeft right otherRight : Object}

/-- Closures apart, alike objects are seen alike. -/
theorem congruence : Congruence (Alike Rel) where
  layer alike := by
    cases alike with
    | integer value => exact .integer value
    | boolean value => exact .boolean value
    | null => exact .null
    | string text => exact .string text
    | array parts => exact .array parts
    | hash parts =>
      have values := (alike_hash_iff.mp (.hash parts)).mono fun _ _ pair => pair.2
      exact .hash fun slot => values.find? slot
    | function => exact .function _ _
    | builtin => exact .builtin _ _
    | returnValue => exact .returnValue _ _
    | error => exact .error _ _
  integer := .integer
  boolean := .boolean
  null := .null
  string := .string
  array := .array
  error := .error

theorem type_eq (alike : object.Alike Rel other) : other.type = object.type :=
  congruence.type_eq alike

theorem isTruthy_eq (alike : object.Alike Rel other) : other.isTruthy = object.isTruthy :=
  congruence.isTruthy_eq alike

theorem hashKey_eq (alike : object.Alike Rel other) : other.hashKey = object.hashKey :=
  congruence.hashKey_eq alike

theorem unary (op : UnaryOp) (alike : object.Alike Rel other) :
    Agrees (Alike Rel) (op.apply object) (op.apply other) :=
  congruence.unary op alike

theorem binary (op : BinaryOp) (leftAlike : left.Alike Rel otherLeft)
    (rightAlike : right.Alike Rel otherRight) :
    Agrees (Alike Rel) (op.apply left right) (op.apply otherLeft otherRight) :=
  congruence.binary op leftAlike rightAlike

theorem index (whole : left.Alike Rel otherLeft) (position : right.Alike Rel otherRight) :
    Agrees (Alike Rel) (left.index right) (otherLeft.index otherRight) :=
  congruence.index whole position

end Alike

end Object

/-! ## Builtins -/

namespace Builtin

variable {Rel : Closure → Closure → Prop} {arguments others : List Object}

/-- What a builtin gives to the host is alike. -/
theorem call_alike (primitive : Builtin)
    (alike : List.Forall₂ (Object.Alike Rel) arguments others) :
    (primitive.call arguments).Alike Rel (primitive.call others) :=
  Object.Alike.congruence.builtinCall primitive alike

theorem written_eq (text : Object.KeepsText Rel) (primitive : Builtin)
    (alike : List.Forall₂ (Object.Alike Rel) arguments others) :
    primitive.written others = primitive.written arguments := by
  cases primitive with
  | puts =>
    have inserted (before : String) :
        others.foldl (fun text argument => text ++ argument.inspect ++ "\n") before =
          arguments.foldl (fun text argument => text ++ argument.inspect ++ "\n") before := by
      induction alike generalizing before with
      | nil => rfl
      | cons first _ inductionHypothesis =>
        simp only [List.foldl_cons, first.inspect_eq text, inductionHypothesis]
    exact inserted ""
  | _ => rfl

end Builtin

end Monkey
