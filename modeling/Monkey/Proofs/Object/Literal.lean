import Mathlib.Data.List.Forall2
import Monkey.Object.Printer
import Monkey.Proofs.Object.Equality
import Monkey.Proofs.Syntax.Canonical
import Monkey.Session

/-!
# Data read back

Integers, booleans, and arrays and hashes of them are shown by texts that are
programs with these objects as their values. A negative integer is read as the
negation of a numeral. The numeral of the least integer is too great, so nothing
that contains this integer can be read back.
-/

namespace Monkey

open Token Grammar
open Monkey.Parser

namespace Object

/-! ## Data -/

/-- Integers, booleans, and arrays and hashes of data. A key of a hash is an
integer or a boolean, since it is data with a hash key, and has one entry. -/
inductive IsData : Object → Prop
  | integer (value : Int64) : IsData (.integer value)
  | boolean (value : Bool) : IsData (.boolean value)
  | array {elements : List Object} (values : ∀ element ∈ elements, IsData element) :
      IsData (.array elements)
  | hash {entries : Dictionary HashKey (Object × Object)}
      (distinct : (entries.map Prod.fst).Nodup)
      (slots : ∀ entry ∈ entries, entry.2.1.hashKey = .ok entry.1)
      (keys : ∀ entry ∈ entries, IsData entry.2.1)
      (values : ∀ entry ∈ entries, IsData entry.2.2) : IsData (.hash entries)

/-- An object contains itself and what its elements, its keys and its values
contain. -/
inductive Contains : Object → Object → Prop
  | refl (object : Object) : Contains object object
  | element {elements : List Object} {element part : Object} (member : element ∈ elements)
      (inside : Contains element part) : Contains (.array elements) part
  | key {entries : Dictionary HashKey (Object × Object)} {entry : HashKey × (Object × Object)}
      {part : Object} (member : entry ∈ entries) (inside : Contains entry.2.1 part) :
      Contains (.hash entries) part
  | value {entries : Dictionary HashKey (Object × Object)} {entry : HashKey × (Object × Object)}
      {part : Object} (member : entry ∈ entries) (inside : Contains entry.2.2 part) :
      Contains (.hash entries) part

section Data

variable {part key value : Object} {slot : HashKey} {elements : List Object}
  {entries : Dictionary HashKey (Object × Object)}

@[simp]
theorem contains_integer_iff {number : Int64} :
    (Object.integer number).Contains part ↔ part = .integer number := by
  constructor
  · rintro ⟨⟩
    rfl
  · rintro rfl
    exact .refl _

@[simp]
theorem contains_boolean_iff {truth : Bool} :
    (Object.boolean truth).Contains part ↔ part = .boolean truth := by
  constructor
  · rintro ⟨⟩
    rfl
  · rintro rfl
    exact .refl _

@[simp]
theorem contains_array_iff :
    (Object.array elements).Contains part ↔
      part = .array elements ∨ ∃ element ∈ elements, element.Contains part := by
  constructor
  · rintro (_ | ⟨member, inside⟩)
    · exact .inl rfl
    · exact .inr ⟨_, member, inside⟩
  · rintro (rfl | ⟨element, member, inside⟩)
    · exact .refl _
    · exact .element member inside

@[simp]
theorem contains_hash_iff :
    (Object.hash entries).Contains part ↔
      part = .hash entries ∨
        ∃ entry ∈ entries, entry.2.1.Contains part ∨ entry.2.2.Contains part := by
  constructor
  · rintro (_ | _ | ⟨member, inside⟩ | ⟨member, inside⟩)
    · exact .inl rfl
    · exact .inr ⟨_, member, .inl inside⟩
    · exact .inr ⟨_, member, .inr inside⟩
  · rintro (rfl | ⟨entry, member, inside | inside⟩)
    · exact .refl _
    · exact .key member inside
    · exact .value member inside

/-- Entering data into a hash makes no other hash than one of data. -/
theorem IsData.enter (data : (Object.hash entries).IsData) (keyData : key.IsData)
    (valueData : value.IsData) {entered : Dictionary HashKey (Object × Object)}
    (done : enter entries key value = .ok entered) : (Object.hash entered).IsData := by
  rcases data with _ | _ | _ | ⟨distinct, slots, keys, values⟩
  unfold Object.enter at done
  cases hashable : key.hashKey with
  | error cause =>
    rw [hashable] at done
    cases done
  | ok slot =>
    rw [hashable] at done
    cases done
    exact .hash (Dictionary.nodup_insert slot _ distinct)
      (Dictionary.forall_mem_insert hashable slots)
      (Dictionary.forall_mem_insert keyData keys)
      (Dictionary.forall_mem_insert valueData values)

theorem IsData.wellFormed {object : Object} (data : object.IsData) : object.WellFormed := by
  induction data with
  | integer value => exact .integer value
  | boolean value => exact .boolean value
  | array _ values => exact .array values
  | hash distinct _ _ _ keys values => exact .hash distinct keys values

/-- Data are equal to themselves. -/
theorem IsData.same_self {object : Object} (data : object.IsData) : object.same object = true :=
  data.wellFormed.beq_self

end Data

/-! ## Tokens of texts -/

/-- What is read off the text that shows an object. -/
def tokens (object : Object) : List Token :=
  Token.ofSource object.inspect

/-- What is read off the texts of a key and of its value. -/
def entryTokens (entry : HashKey × (Object × Object)) : List Token × List Token :=
  (entry.2.1.tokens, entry.2.2.tokens)

/-- The tokens of a written integer. -/
def integerTokens : Int → List Token
  | .ofNat number => [.int (String.ofList (Text.Decimal.write number))]
  | .negSucc number =>
      [.symbol .minus, .int (String.ofList (Text.Decimal.write (number + 1)))]

theorem lexes_writeInt (value : Int) :
    Lexes (Text.Decimal.writeInt value).toList (integerTokens value) := by
  cases value with
  | ofNat number => exact .numeral (wellFormed_write number)
  | negSucc number =>
    have negated := (Lexes.numeral (wellFormed_write (number + 1))).symbol .minus (by decide)
    rwa [Text.Decimal.writeInt, String.toList_append]

section Texts

variable {elements : List Object} {entries : Dictionary HashKey (Object × Object)}

theorem inspectElements_eq_map (elements : List Object) :
    inspectElements elements = elements.map inspect := by
  induction elements with
  | nil => rfl
  | cons element elements inductionHypothesis =>
    rw [inspectElements, inductionHypothesis, List.map_cons]

theorem inspectEntries_eq_map (entries : Dictionary HashKey (Object × Object)) :
    inspectEntries entries =
      entries.map fun entry => entry.2.1.inspect ++ ":" ++ entry.2.2.inspect := by
  induction entries with
  | nil => rfl
  | cons entry entries inductionHypothesis =>
    rw [inspectEntries, inductionHypothesis, List.map_cons]

theorem lexes_array (lexes : ∀ element ∈ elements, Lexes element.inspect.toList element.tokens) :
    Lexes (Object.array elements).inspect.toList
      (.symbol .leftBracket :: (commaJoined (elements.map tokens) ++ [.symbol .rightBracket])) := by
  have listing := Lexes.commaSeparated lexes
  rw [← inspectElements_eq_map] at listing
  have enclosed := (listing.closed .rightBracket (by decide)).symbol .leftBracket (by decide)
  rwa [← List.append_assoc, ← String.toList_append, ← String.toList_append] at enclosed

theorem lexes_hash
    (keys : ∀ entry ∈ entries, Lexes entry.2.1.inspect.toList entry.2.1.tokens)
    (values : ∀ entry ∈ entries, Lexes entry.2.2.inspect.toList entry.2.2.tokens) :
    Lexes (Object.hash entries).inspect.toList
      (.symbol .leftBrace ::
        (commaJoined ((entries.map entryTokens).map pairTokens) ++ [.symbol .rightBrace])) := by
  have pairs entry (member : entry ∈ entries) :
      Lexes (entry.2.1.inspect ++ ":" ++ entry.2.2.inspect).toList
        ((pairTokens ∘ entryTokens) entry) :=
    (keys entry member).pair (values entry member)
  have listing := Lexes.commaSeparated pairs
  rw [← inspectEntries_eq_map, ← List.map_map] at listing
  have enclosed := (listing.closed .rightBrace (by decide)).symbol .leftBrace (by decide)
  rwa [← List.append_assoc, ← String.toList_append, ← String.toList_append] at enclosed

variable {object : Object} {found : List Token}

theorem tokens_eq (lexes : Lexes object.inspect.toList found) : object.tokens = found :=
  lexes.ofChars

theorem lexes_self (lexes : Lexes object.inspect.toList found) :
    Lexes object.inspect.toList object.tokens := by
  rwa [tokens_eq lexes]

/-- The text of data may stand in front of everything but letters and digits. -/
theorem IsData.lexes (data : object.IsData) : Lexes object.inspect.toList object.tokens := by
  induction data with
  | integer value => exact lexes_self (lexes_writeInt value.toInt)
  | boolean value => cases value with
    | true => exact lexes_self (.keyword .true)
    | false => exact lexes_self (.keyword .false)
  | array _ values => exact lexes_self (lexes_array values)
  | hash _ _ _ _ keys values => exact lexes_self (lexes_hash keys values)

theorem tokens_integer (value : Int64) :
    (Object.integer value).tokens = integerTokens value.toInt :=
  tokens_eq (lexes_writeInt value.toInt)

theorem tokens_array (values : ∀ element ∈ elements, element.IsData) :
    (Object.array elements).tokens =
      .symbol .leftBracket :: (commaJoined (elements.map tokens) ++ [.symbol .rightBracket]) :=
  tokens_eq (lexes_array fun element member => (values element member).lexes)

theorem tokens_hash (keys : ∀ entry ∈ entries, entry.2.1.IsData)
    (values : ∀ entry ∈ entries, entry.2.2.IsData) :
    (Object.hash entries).tokens =
      .symbol .leftBrace ::
        (commaJoined ((entries.map entryTokens).map pairTokens) ++ [.symbol .rightBrace]) :=
  tokens_eq (lexes_hash (fun entry member => (keys entry member).lexes)
    fun entry member => (values entry member).lexes)

end Texts

/-! ## Values of texts -/

/-- The tokens are an expression with the object as its value, and an operand of
whatever stands around them. -/
def Denotes (tokens : List Token) (object : Object) : Prop :=
  ∃ value, Stands tokens value ∧ ∀ call scope, value.eval call scope = pure object

theorem stands_write {number : Nat} (bounded : number ≤ 2 ^ 63 - 1) :
    Stands [.int (String.ofList (Text.Decimal.write number))] (.int (Int64.ofNat number)) :=
  .of_chain fun rest => .primary (primary_write bounded rest)

theorem denotes_integer {value : Int64} (notLeast : value ≠ Int64.minValue) :
    Denotes (integerTokens value.toInt) (.integer value) := by
  have inverse : Int64.ofInt value.toInt = value := Int64.ofInt_toInt value
  cases eq : value.toInt with
  | ofNat number =>
    have same : Int64.ofNat number = value := by
      rw [← inverse, eq]
      exact Int64.ofInt_eq_ofNat.symm
    have bounded : number ≤ 2 ^ 63 - 1 := by
      have lt := value.toInt_lt
      rw [eq, Int.ofNat_eq_natCast] at lt
      omega
    refine ⟨_, stands_write bounded, fun _ _ => ?_⟩
    rw [same]
    rfl
  | negSucc number =>
    have same : -Int64.ofNat (number + 1) = value := by
      rw [← inverse, eq, ← Int64.ofInt_eq_ofNat, ← Int64.ofInt_neg]
      rfl
    have bounded : number + 1 ≤ 2 ^ 63 - 1 := by
      have le := value.le_toInt
      have ne : value.toInt ≠ Int64.minValue.toInt := fun least =>
        notLeast (Int64.toInt_inj.mp least)
      rw [Int64.toInt_minValue] at ne
      omega
    refine ⟨_, (stands_write bounded).unary .negate, fun _ _ => ?_⟩
    rw [← same]
    rfl

theorem denotes_boolean (value : Bool) :
    Denotes (Object.boolean value).tokens (.boolean value) := by
  cases value with
  | true =>
    have read : (Object.boolean true).tokens = [.keyword .true] := tokens_eq (.keyword .true)
    exact ⟨.bool true, read ▸ .of_chain fun _ => .primary .true, fun _ _ => rfl⟩
  | false =>
    have read : (Object.boolean false).tokens = [.keyword .false] := tokens_eq (.keyword .false)
    exact ⟨.bool false, read ▸ .of_chain fun _ => .primary .false, fun _ _ => rfl⟩

/-- Elements are evaluated in order. -/
theorem denotes_elements {parts : List (List Token)} {elements : List Object}
    (denote : List.Forall₂ Denotes parts elements) :
    ∃ values, List.Forall₂ Stands parts values ∧
      ∀ call scope, Expr.evalList call scope values = pure elements := by
  induction denote with
  | nil => exact ⟨[], .nil, fun _ _ => rfl⟩
  | cons first _ inductionHypothesis =>
    rcases first with ⟨value, stands, evaluates⟩
    rcases inductionHypothesis with ⟨values, stand, evaluate⟩
    refine ⟨value :: values, .cons stands stand, fun call scope => ?_⟩
    rw [Expr.evalList, evaluates, Action.pure_bind, evaluate, Action.pure_bind]

/-- Entries are put into a hash in order, since no key comes twice. -/
theorem denotes_entries {parts : List (List Token × List Token)}
    {entries : Dictionary HashKey (Object × Object)}
    (denote : List.Forall₂
      (fun part entry => Denotes part.1 entry.2.1 ∧ Denotes part.2 entry.2.2) parts entries)
    (slots : ∀ entry ∈ entries, entry.2.1.hashKey = .ok entry.1) :
    ∃ pairs, List.Forall₂ (fun part pair => Stands part.1 pair.1 ∧ Stands part.2 pair.2)
        parts pairs ∧
      ∀ call scope entered, ((entered ++ entries).map Prod.fst).Nodup →
        Expr.evalPairs call scope entered pairs = pure (entered ++ entries) := by
  induction denote with
  | nil => exact ⟨[], .nil, fun _ _ entered _ => by rw [List.append_nil]; rfl⟩
  | @cons part entry parts entries first _ inductionHypothesis =>
    rcases first with ⟨⟨key, keyStands, keyEvaluates⟩, value, valueStands, valueEvaluates⟩
    rcases inductionHypothesis fun entry member => slots entry (.tail _ member) with
      ⟨pairs, stand, evaluate⟩
    refine ⟨(key, value) :: pairs, .cons ⟨keyStands, valueStands⟩ stand, ?_⟩
    intro call scope entered distinct
    have absent : entry.1 ∉ entered.map Prod.fst := by
      rw [List.map_append, List.map_cons] at distinct
      intro present
      exact (List.nodup_append.mp distinct).2.2 _ present _ (.head _) rfl
    rw [List.append_cons] at distinct ⊢
    rw [Expr.evalPairs, keyEvaluates, Action.pure_bind, slots entry (.head _), valueEvaluates]
    change Expr.evalPairs call scope (Dictionary.insert entry.1 entry.2 entered) pairs = _
    rw [Dictionary.insert_of_notMem _ absent]
    exact evaluate call scope _ distinct

section Literals

variable {elements : List Object} {entries : Dictionary HashKey (Object × Object)}

theorem denotes_array (data : ∀ element ∈ elements, element.IsData)
    (denote : ∀ element ∈ elements, Denotes element.tokens element) :
    Denotes (Object.array elements).tokens (.array elements) := by
  obtain ⟨values, stand, evaluate⟩ :=
    denotes_elements (List.forall₂_map_left_iff.mpr (List.forall₂_same.mpr denote))
  rw [tokens_array data]
  refine ⟨.array values, .of_chain fun rest => ?_, fun call scope => ?_⟩
  · rw [List.cons_append, List.append_assoc]
    exact .primary (.array (listing_of_stands (by decide) stand rest))
  · rw [Expr.eval, evaluate, Action.pure_bind]

theorem denotes_hash (distinct : (entries.map Prod.fst).Nodup)
    (slots : ∀ entry ∈ entries, entry.2.1.hashKey = .ok entry.1)
    (keyData : ∀ entry ∈ entries, entry.2.1.IsData)
    (valueData : ∀ entry ∈ entries, entry.2.2.IsData)
    (keys : ∀ entry ∈ entries, Denotes entry.2.1.tokens entry.2.1)
    (values : ∀ entry ∈ entries, Denotes entry.2.2.tokens entry.2.2) :
    Denotes (Object.hash entries).tokens (.hash entries) := by
  have denote : List.Forall₂
      (fun part entry => Denotes part.1 entry.2.1 ∧ Denotes part.2 entry.2.2)
      (entries.map entryTokens) entries :=
    List.forall₂_map_left_iff.mpr (List.forall₂_same.mpr
      fun entry member => ⟨keys entry member, values entry member⟩)
  rcases denotes_entries denote slots with ⟨pairs, stand, evaluate⟩
  rw [tokens_hash keyData valueData]
  refine ⟨.hash pairs, .of_chain fun rest => ?_, fun call scope => ?_⟩
  · rw [List.cons_append, List.append_assoc]
    exact .primary (.hash (pairs_of_stands stand rest))
  · rw [Expr.eval, evaluate call scope [] distinct, Action.pure_bind]
    rfl

/-- Data without the least integer are denoted by their texts. -/
theorem IsData.denotes {object : Object} (data : object.IsData)
    (lacks : ¬ object.Contains (.integer Int64.minValue)) : Denotes object.tokens object := by
  induction data with
  | integer value =>
    have notLeast : value ≠ Int64.minValue := by
      rintro rfl
      exact lacks (.refl _)
    rw [tokens_integer]
    exact denotes_integer notLeast
  | boolean value => exact denotes_boolean value
  | array data values =>
    exact denotes_array data fun element member =>
      values element member fun inside => lacks (.element member inside)
  | hash distinct slots keyData valueData keys values =>
    exact denotes_hash distinct slots keyData valueData
      (fun entry member => keys entry member fun inside => lacks (.key member inside))
      fun entry member => values entry member fun inside => lacks (.value member inside)

/-! ## The least integer -/

/-- The digits of the least integer. -/
def leastDigits : String := "9223372036854775808"

theorem stuck_least : Stuck leastDigits (Object.integer Int64.minValue).tokens := by
  have read : (Object.integer Int64.minValue).tokens = [.symbol .minus, .int leastDigits] :=
    tokens_integer _
  have great : 2 ^ 63 - 1 < Text.Decimal.read leastDigits.toList := by decide
  rw [read]
  exact (stuck_numeral great).unary .negate

/-- Data on which reading is not stuck are an expression, if reading is stuck on
the least integer. -/
theorem IsData.exists_stands {object : Object} (data : object.IsData)
    (stuck : object.Contains (.integer Int64.minValue) → Stuck leastDigits object.tokens)
    (free : ¬ Stuck leastDigits object.tokens) : ∃ value, Stands object.tokens value := by
  rcases data.denotes fun least => free (stuck least) with ⟨value, stands, -⟩
  exact ⟨value, stands⟩

/-- Reading the text of data fails for the least integer if that is among them. -/
theorem IsData.stuck {object : Object} (data : object.IsData)
    (contains : object.Contains (.integer Int64.minValue)) : Stuck leastDigits object.tokens := by
  induction data with
  | integer value =>
    cases contains_integer_iff.mp contains
    exact stuck_least
  | boolean value => cases contains_boolean_iff.mp contains
  | @array elements data stuck =>
    rcases (contains_array_iff.mp contains).resolve_left nofun with ⟨element, member, inside⟩
    rw [tokens_array data]
    refine stuck_array fun rest => ?_
    rw [List.append_assoc]
    refine listing_fails (by simp [closers]) ?_ ?_ _
    · simp only [List.forall_mem_map]
      exact fun element member => (data element member).exists_stands (stuck element member)
    · exact ⟨_, List.mem_map_of_mem member, stuck element member inside⟩
  | @hash entries _ _ keyData valueData keys values =>
    rcases (contains_hash_iff.mp contains).resolve_left nofun with ⟨entry, member, inside⟩
    rw [tokens_hash keyData valueData]
    refine stuck_hash fun rest => ?_
    rw [List.append_assoc]
    refine pairs_fails ?_ ?_ ⟨_, List.mem_map_of_mem member, ?_⟩ _
    · simp only [List.forall_mem_map]
      exact fun entry member => (keyData entry member).exists_stands (keys entry member)
    · simp only [List.forall_mem_map]
      exact fun entry member => (valueData entry member).exists_stands (values entry member)
    · exact inside.imp (keys entry member) (values entry member)

end Literals

end Object

/-! ## Sessions -/

/-- The text of an object of data, run in any session, gives the object back and
changes nothing. If the least integer is among the data, the text is rejected
because of the digits of that integer. -/
theorem Session.run_inspect {object : Object} (data : object.IsData) (depth : Nat)
    (scope : ScopeId) (state : State) :
    (¬ object.Contains (.integer Int64.minValue) →
      Session.run depth scope object.inspect state = .finished object state ∧
        (object == object) = true) ∧
    (object.Contains (.integer Int64.minValue) →
      ∃ later, Session.run depth scope object.inspect state =
        .rejected (.invalidInteger "9223372036854775808" :: later)) := by
  constructor
  · intro lacks
    rcases data.denotes lacks with ⟨value, stands, evaluates⟩
    have read : Draft.ofSource object.inspect = ⟨[.expr value], []⟩ :=
      ofTokens_eq_iff_sentence.mpr stands.sentence
    have finished : Program.eval depth scope [.expr value] state = some (object, state) := by
      have block : Block.eval (Object.apply depth) scope [.expr value] = pure object := by
        rw [Block.eval, Block.evalFrom, Stmt.eval, evaluates]
        rfl
      rw [Program.eval, block]
      cases data <;> rfl
    refine ⟨?_, data.same_self⟩
    simp only [run, read, Draft.isClean, List.isEmpty_nil, if_true, evaluate, finished]
  · intro contains
    rcases (data.stuck contains).diagnostics_ofTokens with ⟨later, rejected⟩
    have read : (Draft.ofSource object.inspect).diagnostics =
        .invalidInteger Object.leastDigits :: later := rejected
    refine ⟨later, ?_⟩
    simp only [run, Draft.isClean, read, List.isEmpty_cons, Bool.false_eq_true, if_false]
    rfl

/-- An array with a negative integer, and a hash with keys of both types. -/
def Object.readable : Object :=
  .array [.integer (-5), .hash [(⟨.boolean, 1⟩, (.boolean true, .array [])),
    (⟨.integer, (-2 : Int64).toUInt64⟩, (.integer (-2), .hash []))]]

/-- A hash with the least integer as a key. -/
def Object.unreadable : Object :=
  .hash [(⟨.integer, Int64.minValue.toUInt64⟩, (.integer Int64.minValue, .array [.integer 1]))]

theorem Session.run_inspect_of_nestedData :
    Session.run 0 0 "[-5, \x7btrue:[], -2:\x7b\x7d\x7d]" (State.empty.openScope none []) =
        .finished .readable (State.empty.openScope none []) ∧
      ∃ later, Session.run 0 0 "\x7b-9223372036854775808:[1]\x7d"
          (State.empty.openScope none []) =
        .rejected (.invalidInteger "9223372036854775808" :: later) := by
  have nil : (Object.hash []).IsData :=
    .hash .nil (List.forall_mem_nil _) (List.forall_mem_nil _) (List.forall_mem_nil _)
  have readable : Object.readable.IsData := by
    have first := nil.enter (.boolean true) (.array (List.forall_mem_nil _)) rfl
    have both := first.enter (.integer (-2)) nil rfl
    exact .array (List.forall_mem_cons.mpr ⟨.integer _, List.forall_mem_singleton.mpr both⟩)
  have unreadable : Object.unreadable.IsData :=
    nil.enter (.integer _) (.array (List.forall_mem_singleton.mpr (.integer 1))) rfl
  have lacks : ¬ Object.readable.Contains (.integer Int64.minValue) := by
    simp [Object.readable]
  have contains : Object.unreadable.Contains (.integer Int64.minValue) := by
    simp [Object.unreadable]
  exact ⟨((Session.run_inspect readable 0 0 _).1 lacks).1,
    (Session.run_inspect unreadable 0 0 _).2 contains⟩

end Monkey
