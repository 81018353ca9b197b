import Mathlib.Logic.Function.Basic
import Monkey.Proofs.Evaluation.HashLiteral

/-!
# Digests of texts that differ in one byte

Different texts may have the same digest, but not if they differ in one byte only.
Adding a byte to a digest can be undone, since the prime is odd and so has an inverse
modulo `2 ^ 64`, and it tells different bytes apart. Digests that differ at some byte
therefore go on to differ as long as the same bytes are added to both.
-/

namespace Monkey

namespace Text.Digest

/-! ## One step -/

/-- The number that undoes a multiplication by the prime. -/
def inverse : UInt64 := 0xce965057aff6957b

theorem prime_mul_inverse : prime * inverse = 1 := by
  decide

theorem mul_prime_injective : Function.Injective fun digest : UInt64 => digest * prime := by
  apply Function.LeftInverse.injective (g := fun digest => digest * inverse)
  intro digest
  calc
    digest * prime * inverse = digest * (prime * inverse) := UInt64.mul_assoc _ _ _
    _ = digest * 1 := congrArg (digest * ·) prime_mul_inverse
    _ = digest := UInt64.mul_one _

/-- The digest before a byte was added can be told from the digest behind it. -/
theorem step_left_injective (byte : UInt8) : Function.Injective fun digest => step digest byte := by
  intro first second same
  exact (UInt64.xor_left_inj _).mp (mul_prime_injective same)

/-- The byte that was added can be told from the digest behind it. -/
theorem step_right_injective (digest : UInt64) : Function.Injective (step digest) := by
  intro first second same
  exact UInt8.toUInt64_inj.mp ((UInt64.xor_right_inj _).mp (mul_prime_injective same))

/-! ## Any number of steps -/

/-- Digests stay different while the same bytes are added to them. -/
theorem foldl_step_injective (bytes : List UInt8) :
    Function.Injective fun digest => bytes.foldl step digest := by
  induction bytes with
  | nil => exact Function.injective_id
  | cons byte bytes inductionHypothesis =>
    exact inductionHypothesis.comp (step_left_injective byte)

theorem ofBytes_append_cons_ne {first second : UInt8} (ne : first ≠ second)
    (front back : List UInt8) :
    ofBytes (front ++ first :: back) ≠ ofBytes (front ++ second :: back) := by
  rw [ofBytes_append, ofBytes_append, List.foldl_cons, List.foldl_cons]
  intro same
  exact ne (step_right_injective _ (foldl_step_injective back same))

/-! ## Sequences that differ once -/

/-- The sequences have the same length and differ at exactly one position. -/
structure DifferOnce (left right : List UInt8) : Prop where
  length : left.length = right.length
  position : ∃! position : Nat, left[position]? ≠ right[position]?

/-- A byte between the same beginning and the same end may be exchanged for another one. -/
theorem differOnce_append {first second : UInt8} (ne : first ≠ second)
    (front back : List UInt8) : DifferOnce (front ++ first :: back) (front ++ second :: back) where
  length := by simp only [List.length_append, List.length_cons]
  position := by
    exists front.length
    constructor
    · simpa using ne
    · intro position differs
      by_contra elsewhere
      apply differs
      rcases Nat.lt_or_gt_of_ne elsewhere with before | behind
      · rw [List.getElem?_append_left before, List.getElem?_append_left before]
      · rcases Nat.exists_eq_succ_of_ne_zero (Nat.sub_ne_zero_of_lt behind) with ⟨distance, eq⟩
        rw [List.getElem?_append_right (Nat.le_of_lt behind),
          List.getElem?_append_right (Nat.le_of_lt behind), eq, List.getElem?_cons_succ,
          List.getElem?_cons_succ]

/-- Sequences that differ once have the same beginning and the same end. -/
theorem DifferOnce.exists_eq_append {left right : List UInt8} (differ : DifferOnce left right) :
    ∃ front first second back, first ≠ second ∧
      left = front ++ first :: back ∧ right = front ++ second :: back := by
  rcases differ.position with ⟨position, differs, only⟩
  have same (other : Nat) (ne : other ≠ position) : left[other]? = right[other]? :=
    not_not.mp fun also => ne (only other also)
  have leftInside : position < left.length := by
    by_contra outside
    have none : left[position]? = none := List.getElem?_eq_none (Nat.le_of_not_lt outside)
    rw [differ.length] at outside
    exact differs (none.trans (List.getElem?_eq_none (Nat.le_of_not_lt outside)).symm)
  have rightInside : position < right.length := differ.length ▸ leftInside
  have front : left.take position = right.take position := by
    apply List.ext_getElem?
    intro other
    rw [List.getElem?_take, List.getElem?_take]
    split
    · next before => exact same other (Nat.ne_of_lt before)
    · rfl
  have back : left.drop (position + 1) = right.drop (position + 1) := by
    apply List.ext_getElem?
    intro other
    rw [List.getElem?_drop, List.getElem?_drop]
    exact same _ (by omega)
  exists left.take position, left[position], right[position], left.drop (position + 1)
  constructor
  · intro equal
    apply differs
    rw [List.getElem?_eq_getElem leftInside, List.getElem?_eq_getElem rightInside, equal]
  · constructor
    · rw [List.getElem_cons_drop, List.take_append_drop]
    · rw [front, back, List.getElem_cons_drop, List.take_append_drop]

theorem DifferOnce.ofBytes_ne {left right : List UInt8} (differ : DifferOnce left right) :
    ofBytes left ≠ ofBytes right := by
  rcases differ.exists_eq_append with ⟨front, first, second, back, ne, rfl, rfl⟩
  exact ofBytes_append_cons_ne ne front back

end Text.Digest

/-! ## Keys of strings -/

namespace Expr

open Text.Digest

variable {call : Caller} {scope : ScopeId} {pairs : List (Expr × Expr)} {left right : String}
  {first second : Object} {before after : State}

/-- A hash literal of two strings with different keys has an entry for each of them. -/
theorem PairsYield.eval_of_keys_ne
    (apart : (⟨.string, ofString left⟩ : HashKey) ≠ ⟨.string, ofString right⟩)
    (yields : PairsYield call scope pairs [(.string left, first), (.string right, second)]
      before after) :
    (Expr.hash pairs).eval call scope before =
      .value (.hash [(⟨.string, ofString left⟩, (.string left, first)),
        (⟨.string, ofString right⟩, (.string right, second))]) after := by
  have keys : ∀ pair ∈ [(Object.string left, first), (Object.string right, second)],
      pair.1.IsKey := by
    simp [Object.IsKey, Object.type]
  have slots : [(Object.string left, first), (Object.string right, second)].filterMap
      Object.stored? = [(⟨.string, ofString left⟩, (.string left, first)),
        (⟨.string, ofString right⟩, (.string right, second))] := rfl
  rw [Expr.eval, Action.bind_apply, yields.evalPairs keys [], slots]
  simp [Dictionary.insert, apart]

/-- Strings that differ in one byte have different keys. A hash literal with both of them
has two entries, and each of them finds its own value. -/
theorem eval_hash_of_differOnce (left right : String)
    (differ : DifferOnce left.toUTF8.data.toList right.toUTF8.data.toList) :
    (∃ leftSlot rightSlot, (Object.string left).hashKey = .ok leftSlot ∧
      (Object.string right).hashKey = .ok rightSlot ∧ leftSlot ≠ rightSlot) ∧
    ∀ (call : Caller) (scope : ScopeId) (pairs : List (Expr × Expr)) (first second : Object)
      (before after : State),
      PairsYield call scope pairs [(.string left, first), (.string right, second)] before after →
        ∃ entries, (Expr.hash pairs).eval call scope before = .value (.hash entries) after ∧
          entries.length = 2 ∧
          (Object.hash entries).index (.string left) = .ok first ∧
          (Object.hash entries).index (.string right) = .ok second := by
  have apart : (⟨.string, ofString left⟩ : HashKey) ≠ ⟨.string, ofString right⟩ := by
    intro same
    exact differ.ofBytes_ne (congrArg HashKey.digest same)
  constructor
  · exact ⟨_, _, rfl, rfl, apart⟩
  · intro call scope pairs first second before after yields
    refine ⟨_, yields.eval_of_keys_ne apart, rfl, ?_, ?_⟩
    · rw [Object.index_hash_of_hashKey rfl]
      simp [Dictionary.find?]
    · rw [Object.index_hash_of_hashKey rfl]
      simp [Dictionary.find?, apart]

/-- The accented letters are written with two bytes each, and the first ones are the same. -/
theorem eval_hash_of_differOnce_of_accents :
    DifferOnce "naïve".toUTF8.data.toList "naîve".toUTF8.data.toList ∧
      ∃ entries,
        (Expr.hash [(.string "naïve", .int 1), (.string "naîve", .int 2)]).eval (Object.apply 0) 0
            State.empty = .value (.hash entries) State.empty ∧
          entries.length = 2 ∧
          (Object.hash entries).index (.string "naïve") = .ok (.integer 1) ∧
          (Object.hash entries).index (.string "naîve") = .ok (.integer 2) := by
  have differ : DifferOnce "naïve".toUTF8.data.toList "naîve".toUTF8.data.toList :=
    differOnce_append (show (175 : UInt8) ≠ 174 by decide) [110, 97, 195] [118, 101]
  exact ⟨differ, (eval_hash_of_differOnce "naïve" "naîve" differ).2 (Object.apply 0) 0 _ _ _ _ _
    (.cons rfl rfl (.cons rfl rfl (.nil _)))⟩

end Expr

end Monkey
