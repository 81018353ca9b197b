import Mathlib.Data.List.Induction
import Monkey.Proofs.Evaluation.Position

/-!
# Hash literals

The pairs of a hash literal are entered one by one, each under the key of its key
object. The hash has one entry for each key, at the place where the key first
occurred and with the objects with which it last occurred. An object that has no key
stops the literal before the value beside it is evaluated.
-/

namespace Monkey

/-! ## Dictionaries made of pairs -/

namespace Dictionary

variable {κ α : Type} [DecidableEq κ]

theorem ofList_concat (pairs : List (κ × α)) (pair : κ × α) :
    ofList (pairs ++ [pair]) = insert pair.1 pair.2 (ofList pairs) := by
  rw [ofList, List.foldl_append]
  rfl

/-- A key has the value of the last of its pairs. -/
theorem find?_ofList (key : κ) (pairs : List (κ × α)) :
    find? key (ofList pairs) =
      (pairs.filter fun pair => pair.1 = key).getLast?.map Prod.snd := by
  induction pairs using List.reverseRecOn with
  | nil => rfl
  | append_singleton pairs pair inductionHypothesis =>
    rw [ofList_concat, List.filter_append]
    by_cases same : pair.1 = key
    · subst same
      simp
    · rw [find?_insert_of_ne same, inductionHypothesis]
      simp [same]

/-- The keys of pairs stand in the order in which they first occur. -/
theorem map_fst_ofList (pairs : List (κ × α)) :
    (ofList pairs).map Prod.fst = (pairs.map Prod.fst).eraseDups := by
  induction pairs using List.reverseRecOn with
  | nil => rfl
  | append_singleton pairs pair inductionHypothesis =>
    rw [ofList_concat, map_fst_insert, inductionHypothesis, List.map_append,
      List.eraseDups_append]
    by_cases member : pair.1 ∈ pairs.map Prod.fst
    · simp [List.removeAll, member]
    · simp [List.removeAll, member, List.eraseDups_cons]

/-- A dictionary made of pairs has one entry for each key. -/
theorem nodup_ofList (pairs : List (κ × α)) : ((ofList pairs).map Prod.fst).Nodup := by
  induction pairs using List.reverseRecOn with
  | nil => exact .nil
  | append_singleton pairs pair inductionHypothesis =>
    rw [ofList_concat]
    exact nodup_insert pair.1 pair.2 inductionHypothesis

end Dictionary

/-! ## Keys -/

namespace Object

/-- Objects that can be keys of a hash. -/
def IsKey (object : Object) : Prop :=
  object.type = .integer ∨ object.type = .boolean ∨ object.type = .string

instance (object : Object) : Decidable object.IsKey :=
  inferInstanceAs (Decidable (_ ∨ _ ∨ _))

/-- The key under which an object is entered into a hash, if there is one. -/
def slot? (object : Object) : Option HashKey :=
  object.hashKey.toOption

/-- The last of some pairs of a key and a value that is entered under a key. -/
def lastUnder (slot : HashKey) (pairs : List (Object × Object)) : Option (Object × Object) :=
  (pairs.filter fun pair => pair.1.slot? = some slot).getLast?

theorem IsKey.exists_hashKey {object : Object} (key : object.IsKey) :
    ∃ slot, object.hashKey = .ok slot := by
  cases object with
  | integer | boolean | string => exact ⟨_, rfl⟩
  | _ => simp [IsKey, type] at key

theorem hashKey_of_not_isKey {object : Object} (unusable : ¬ object.IsKey) :
    object.hashKey = .error (.unusableAsHashKey object.type) := by
  cases object with
  | integer | boolean | string => simp [IsKey, type] at unusable
  | _ => rfl

theorem slot?_eq_some_iff {object : Object} {slot : HashKey} :
    object.slot? = some slot ↔ object.hashKey = .ok slot := by
  unfold slot?
  cases object.hashKey <;> simp [Except.toOption]

/-- The entry that a key and a value make in a hash. -/
def stored? (pair : Object × Object) : Option (HashKey × (Object × Object)) :=
  pair.1.slot?.map (·, pair)

theorem map_fst_entries (pairs : List (Object × Object)) :
    (pairs.filterMap stored?).map Prod.fst = pairs.filterMap fun pair => pair.1.slot? := by
  have key (pair : Object × Object) : (stored? pair).map Prod.fst = pair.1.slot? := by
    rw [stored?, Option.map_map]
    exact Option.map_id'
  simp only [List.map_filterMap, key]

theorem filter_entries (slot : HashKey) (pairs : List (Object × Object)) :
    (pairs.filterMap stored?).filter (fun entry => entry.1 = slot) =
      (pairs.filter fun pair => pair.1.slot? = some slot).map (slot, ·) := by
  induction pairs with
  | nil => rfl
  | cons pair pairs inductionHypothesis =>
    cases found : pair.1.slot? with
    | none => simp [stored?, found, inductionHypothesis]
    | some other =>
      by_cases same : other = slot <;> simp [stored?, found, same, inductionHypothesis]

/-- A key has the last of the pairs that are entered under it. -/
theorem find?_entries (slot : HashKey) (pairs : List (Object × Object)) :
    Dictionary.find? slot (Dictionary.ofList (pairs.filterMap stored?)) = lastUnder slot pairs := by
  rw [Dictionary.find?_ofList, filter_entries, List.getLast?_map, Option.map_map, lastUnder]
  exact Option.map_id'

theorem hashKey_of_lastUnder {slot : HashKey} {pairs : List (Object × Object)}
    {pair : Object × Object} (last : lastUnder slot pairs = some pair) :
    pair.1.hashKey = .ok slot := by
  have member := List.mem_of_getLast? last
  exact slot?_eq_some_iff.mp (of_decide_eq_true (List.mem_filter.mp member).2)

/-- A hash has a value for an object that has a key, and null if the key is absent. -/
theorem index_hash_of_hashKey {key : Object} {slot : HashKey} (hashable : key.hashKey = .ok slot)
    (entries : Dictionary HashKey (Object × Object)) :
    (Object.hash entries).index key =
      .ok ((Dictionary.find? slot entries).elim .null Prod.snd) := by
  simp only [index, hashable]
  rfl

theorem index_hash_of_not_isKey {key : Object} (unusable : ¬ key.IsKey)
    (entries : Dictionary HashKey (Object × Object)) :
    (Object.hash entries).index key = .error (.unusableAsHashKey key.type) := by
  simp only [index, hashKey_of_not_isKey unusable]
  rfl

end Object

/-! ## Evaluation of pairs -/

/-- The keys and values of pairs are evaluated in order, and none of them raises a
signal. -/
inductive Expr.PairsYield (call : Caller) (scope : ScopeId) :
    List (Expr × Expr) → List (Object × Object) → State → State → Prop
  | nil (state : State) : PairsYield call scope [] [] state state
  | cons {key held : Expr} {rest : List (Expr × Expr)} {object value : Object}
      {others : List (Object × Object)} {before between middle after : State} :
      key.eval call scope before = .value object between →
      held.eval call scope between = .value value middle →
      PairsYield call scope rest others middle after →
        PairsYield call scope ((key, held) :: rest) ((object, value) :: others) before after

namespace Expr

variable {call : Caller} {scope : ScopeId} {pairs : List (Expr × Expr)}
  {values : List (Object × Object)} {before middle after : State}

theorem PairsYield.inTurn (yields : PairsYield call scope pairs values before after)
    (keys : ∀ pair ∈ values, pair.1.IsKey) :
    InTurn (Expr.YieldsPair call scope) pairs before after := by
  induction yields with
  | nil state => exact .nil state
  | cons ranKey ranValue _ inductionHypothesis =>
    rw [List.forall_mem_cons] at keys
    rcases keys.1.exists_hashKey with ⟨slot, hashable⟩
    exact .cons ⟨_, ⟨_, slot, ranKey, hashable⟩, _, ranValue⟩ (inductionHypothesis keys.2)

/-- Pairs whose keys can be keys of a hash are entered one by one. -/
theorem PairsYield.evalPairs (yields : PairsYield call scope pairs values before after)
    (keys : ∀ pair ∈ values, pair.1.IsKey) (entries : Dictionary HashKey (Object × Object)) :
    Expr.evalPairs call scope entries pairs before =
      .value ((values.filterMap Object.stored?).foldl
        (fun dictionary entry => Dictionary.insert entry.1 entry.2 dictionary) entries) after := by
  induction yields generalizing entries with
  | nil => rfl
  | cons ranKey ranValue _ inductionHypothesis =>
    rw [List.forall_mem_cons] at keys
    rcases keys.1.exists_hashKey with ⟨slot, hashable⟩
    have entered := Object.slot?_eq_some_iff.mpr hashable
    simp only [Expr.evalPairs, Action.bind_apply, ranKey, hashable, Action.ofExcept, Action.done,
      ranValue, inductionHypothesis keys.2, List.filterMap_cons, Object.stored?, entered,
      Option.map_some, List.foldl_cons]

/-- A hash literal is a dictionary in which the last write wins. It has one entry for
each key of its key objects, in the order in which these first occur, and the entry
holds the key object and the value with which the key last occurs. Looking up an object
finds the last value for its key, or null; only objects that have no key cannot be
looked up. An object that has no key stops the literal where it stands: what is
evaluated then is all in front of it, and nothing behind it. -/
theorem eval_hash (call : Caller) (scope : ScopeId) :
    (∀ (pairs : List (Expr × Expr)) (values : List (Object × Object)) (before after : State),
      PairsYield call scope pairs values before after → (∀ pair ∈ values, pair.1.IsKey) →
        ∃ entries, (Expr.hash pairs).eval call scope before = .value (.hash entries) after ∧
          (entries.map Prod.fst).Nodup ∧
          entries.map Prod.fst = (values.filterMap fun pair => pair.1.slot?).eraseDups ∧
          (∀ entry ∈ entries, Object.lastUnder entry.1 values = some entry.2 ∧
            entry.2.1.hashKey = .ok entry.1) ∧
          (∀ key : Object, key.IsKey → ∃ slot, key.hashKey = .ok slot ∧
            (Object.hash entries).index key =
              .ok ((Object.lastUnder slot values).elim .null Prod.snd)) ∧
          ∀ key : Object,
            (Object.hash entries).index key = .error (.unusableAsHashKey key.type) ↔
              ¬ key.IsKey) ∧
    ∀ (front back : List (Expr × Expr)) (values : List (Object × Object)) (key held : Expr)
      (object : Object) (before middle after : State),
      PairsYield call scope front values before middle → (∀ pair ∈ values, pair.1.IsKey) →
      key.eval call scope middle = .value object after → ¬ object.IsKey →
        (Expr.hash (front ++ (key, held) :: back)).eval call scope before =
          .signal (.error (.unusableAsHashKey object.type)) after := by
  constructor
  · intro pairs values before after yields keys
    have found := fun slot => Object.find?_entries slot values
    generalize made : Dictionary.ofList (values.filterMap Object.stored?) = entries at found
    have distinct : (entries.map Prod.fst).Nodup := made ▸ Dictionary.nodup_ofList _
    refine ⟨entries, ?evaluated, distinct, ?order, ?last, ?lookup, ?unusable⟩
    case evaluated =>
      rw [Expr.eval, Action.bind_apply, yields.evalPairs keys []]
      exact congrArg (fun entries => Outcome.value (Object.hash entries) after) made
    case order => rw [← made, Dictionary.map_fst_ofList, Object.map_fst_entries]
    case last =>
      intro entry member
      have last := (found entry.1).symm.trans (Dictionary.find?_of_mem distinct member)
      exact ⟨last, Object.hashKey_of_lastUnder last⟩
    case lookup =>
      intro key isKey
      rcases isKey.exists_hashKey with ⟨slot, hashable⟩
      exact ⟨slot, hashable, by rw [Object.index_hash_of_hashKey hashable, found]⟩
    case unusable =>
      intro key
      refine ⟨fun failed isKey => ?_, fun unusable => Object.index_hash_of_not_isKey unusable _⟩
      rcases isKey.exists_hashKey with ⟨slot, hashable⟩
      rw [Object.index_hash_of_hashKey hashable] at failed
      cases failed
  · intro front back values key held object before middle after yields keys ran unusable
    have raises (entries : Dictionary HashKey (Object × Object)) :
        Expr.evalPairs call scope entries ((key, held) :: back) middle =
          .signal (.error (.unusableAsHashKey object.type)) after := by
      simp only [Expr.evalPairs, Action.bind_apply, ran, Object.hashKey_of_not_isKey unusable,
        Action.ofExcept, Action.raise]
    rw [Expr.eval, Action.bind_apply,
      Expr.evalPairs_append_of_signal [] (yields.inTurn keys) raises]

/-- An integer and a boolean with the same digest, a string, and the integer again. The
first value writes. -/
def samplePairs : List (Expr × Expr) :=
  [(.int 1, .call (.ident "puts") [.string "first"]), (.bool true, .int 11),
    (.string "k", .int 3), (.int 1, .int 12)]

theorem eval_hash_of_samplePairs :
    (∃ entries,
      (Expr.hash samplePairs).eval (Object.apply 0) 0 (State.empty.openScope none []) =
        .value (.hash entries) ((State.empty.openScope none []).write "first\n") ∧
      entries.map Prod.fst =
        [⟨.integer, 1⟩, ⟨.boolean, 1⟩, ⟨.string, Text.Digest.ofString "k"⟩] ∧
      (Object.hash entries).index (.integer 1) = .ok (.integer 12) ∧
      (Object.hash entries).index .null = .error (.unusableAsHashKey .null)) ∧
    (Expr.hash (samplePairs ++ [(.array [], .call (.ident "puts") [.string "second"]),
      (.int 2, .ident "missing")])).eval (Object.apply 0) 0 (State.empty.openScope none []) =
        .signal (.error (.unusableAsHashKey .array))
          ((State.empty.openScope none []).write "first\n") := by
  have yields : PairsYield (Object.apply 0) 0 samplePairs
      [(.integer 1, .null), (.boolean true, .integer 11), (.string "k", .integer 3),
        (.integer 1, .integer 12)]
      (State.empty.openScope none []) ((State.empty.openScope none []).write "first\n") :=
    .cons rfl rfl (.cons rfl rfl (.cons rfl rfl (.cons rfl rfl (.nil _))))
  constructor
  · rcases (eval_hash (Object.apply 0) 0).1 _ _ _ _ yields (by decide) with
      ⟨entries, evaluated, -, order, -, lookup, unusable⟩
    refine ⟨entries, evaluated, order.trans rfl, ?_, (unusable .null).mpr (by decide)⟩
    rcases lookup (.integer 1) (by decide) with ⟨slot, hashable, found⟩
    cases hashable
    exact found
  · exact (eval_hash (Object.apply 0) 0).2 samplePairs [(.int 2, .ident "missing")] _ (.array []) _
      (.array []) _ _ _ yields (by decide) rfl (by decide)

end Expr

end Monkey
