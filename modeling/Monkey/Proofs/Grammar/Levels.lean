import Monkey.Proofs.Grammar
import Monkey.Proofs.Parser.Reads

/-!
# Layers and binding levels

The layers of the grammar against the binding levels by which the parsers read
expressions, and the places where an expression ends.
-/

namespace Monkey

@[simp]
theorem BinaryOp.follow?_mark (op : BinaryOp) : op.mark.follow? = some (.binary op) := by
  cases op <;> rfl

/-- The symbol with which a continuation begins. -/
def Follow.mark : Follow → Symbol
  | .binary op => op.mark
  | .call => .leftParen
  | .index => .leftBracket

namespace Parser

theorem Stops.mono {weak strong : Level} {tokens : List Token} (stops : Stops weak tokens)
    (le : weak ≤ strong) : Stops strong tokens := by
  intro token head follow announces lt
  exact stops token head follow announces (Nat.lt_of_le_of_lt le lt)

end Parser

namespace Grammar

open Monkey.Parser

variable {rest : List Token}

/-! ## Layers -/

/-- The binding level of a layer. -/
def Layer.level : Layer → Level
  | .equality => .equality
  | .comparison => .comparison
  | .sum => .sum
  | .product => .product
  | .unary => .unary

/-- The level below which an expression of a layer is read as a whole. -/
def Layer.ceiling : Layer → Level
  | .equality => .equality
  | .comparison => .comparison
  | .sum => .sum
  | .product => .product
  | .unary => .suffix

theorem Layer.level_le_next (layer : Layer) : layer.level ≤ layer.next.level := by
  cases layer <;> decide

theorem Layer.ceiling_le_next (layer : Layer) : layer.ceiling ≤ layer.next.ceiling := by
  cases layer <;> decide

theorem Layer.level_lt_ceiling_next (layer : Layer) : layer.level < layer.next.ceiling := by
  cases layer <;> decide

theorem level_of_mem_operators {op : BinaryOp} {layer : Layer} (member : op ∈ layer.operators) :
    op.level = layer.level ∧ layer.ceiling = layer.level := by
  cases layer <;> simp only [Layer.operators, List.mem_cons, List.not_mem_nil, or_false] at member
  all_goals rcases member with rfl | rfl <;> exact ⟨rfl, rfl⟩

/-! ## Ends of expressions -/

/-- Only the continuations of the grammar announce one to the parsers. -/
theorem mem_continuations_of_follow? {mark : Symbol} {follow : Follow}
    (announces : mark.follow? = some follow) : mark ∈ continuations := by
  cases mark <;> simp [Symbol.follow?] at announces <;> decide

/-- Calls and indexing are what binds more tightly than a unary operator. -/
theorem unary_lt_level_iff {mark : Symbol} {follow : Follow}
    (announces : mark.follow? = some follow) :
    Level.unary < follow.level ↔ mark ∈ suffixOpeners := by
  cases mark <;> simp [Symbol.follow?] at announces <;> subst announces <;> decide

/-- A continuation is announced by nothing but its symbol. -/
theorem eq_mark_of_follow? {token : Token} {follow : Follow}
    (announces : token.follow? = some follow) : token = .symbol follow.mark := by
  rcases token with _ | _ | _ | _ | mark | _ <;>
    simp only [Token.follow?, reduceCtorEq] at announces
  cases mark <;> simp only [Symbol.follow?, Option.some.injEq, reduceCtorEq] at announces <;>
    subst announces <;> rfl

/-- In front of no continuation every expression stops. -/
theorem stops_of_noneNext {level : Level} (unfollowed : NoneNext continuations rest) :
    Stops level rest := by
  intro token head follow announces
  cases token with
  | symbol mark => exact absurd head (unfollowed mark (mem_continuations_of_follow? announces))
  | _ => simp [Token.follow?] at announces

/-- An operand stops exactly in front of no call and no indexing. -/
theorem stops_unary_iff : Stops .unary rest ↔ NoneNext suffixOpeners rest := by
  constructor
  · intro stops mark member head
    have announces : ∃ follow, mark.follow? = some follow := by
      simp only [suffixOpeners, List.mem_cons, List.not_mem_nil, or_false] at member
      rcases member with rfl | rfl <;> exact ⟨_, rfl⟩
    rcases announces with ⟨follow, announces⟩
    exact stops _ head follow announces ((unary_lt_level_iff announces).mpr member)
  · intro unfollowed token head follow announces lt
    cases token with
    | symbol mark => exact unfollowed mark ((unary_lt_level_iff announces).mp lt) head
    | _ => simp [Token.follow?] at announces

/-- In front of no semicolon a statement may end where its expression does. -/
theorem noneNext_of_stops_lowest (stops : Stops .lowest rest)
    (noSemicolon : rest.head? ≠ some (.symbol .semicolon)) :
    NoneNext (.semicolon :: continuations) rest := by
  intro mark member head
  rcases List.mem_cons.mp member with rfl | member
  · exact noSemicolon head
  · have announces : ∃ follow, mark.follow? = some follow := by
      revert member
      cases mark <;> simp [continuations, suffixOpeners, Symbol.follow?]
    rcases announces with ⟨follow, announces⟩
    exact stops _ head follow announces follow.lowest_lt_level

/-- Nothing binds more tightly than calls and indexing. -/
theorem stops_suffix : Stops .suffix rest := by
  intro token _ follow _ lt
  cases follow with
  | binary op => cases op <;> exact absurd lt (by decide)
  | call => exact absurd lt (by decide)
  | index => exact absurd lt (by decide)

/-- The end of an expression is neither extended nor taken for the first branch
of a condition. -/
structure Ends (level : Level) (rest : List Token) : Prop where
  stops : Stops level rest
  notOtherwise : rest.head? ≠ some (.keyword .otherwise)

theorem Ends.mono {weak strong : Level} (ends : Ends weak rest) (le : weak ≤ strong) :
    Ends strong rest :=
  ⟨ends.stops.mono le, ends.notOtherwise⟩

/-- An expression ends in front of a symbol that announces no continuation. -/
theorem Ends.of_symbol {level : Level} {mark : Symbol} (none : mark.follow? = none) :
    Ends level (.symbol mark :: rest) where
  stops := by
    intro token head follow announces
    cases head
    simp [Token.follow?, none] at announces
  notOtherwise := by simp

/-- The left operand of a binary operator ends in front of it. -/
theorem Ends.of_mark (op : BinaryOp) : Ends op.level (.symbol op.mark :: rest) where
  stops := by
    intro token head follow announces
    cases head
    simp only [Token.follow?, BinaryOp.follow?_mark, Option.mem_def, Option.some.injEq] at announces
    subst announces
    exact Nat.lt_irrefl _
  notOtherwise := by simp

/-! ## Parameters -/

theorem Names.reads {tokens : List Token} {names : List String}
    (derived : Names tokens names rest) :
    ∃ name behind others, tokens = .ident name :: behind ∧ names = name :: others ∧
      Reads moreParameters behind others rest := by
  induction derived with
  | last => exact ⟨_, _, [], rfl, rfl, rfl⟩
  | more others inductionHypothesis =>
    rcases inductionHypothesis with ⟨name, behind, names, rfl, rfl, reads⟩
    exact ⟨_, _, _, rfl, rfl, map_eq_iff.mpr ⟨names, reads, rfl⟩⟩

theorem names_of_reads {tokens : List Token} {names : List String}
    (reads : Reads moreParameters tokens names rest) (name : String) :
    Names (.ident name :: tokens) (name :: names) rest := by
  unfold Reads at reads
  fun_induction moreParameters tokens generalizing names name with
  | case1 behind =>
    rcases reads_done_iff.mp reads with ⟨rfl, rfl⟩
    exact .last
  | case2 next behind inductionHypothesis =>
    rcases map_eq_iff.mp reads with ⟨others, behindReads, rfl⟩
    exact .more (inductionHypothesis behindReads next)
  | case3 => exact absurd reads not_reads_unexpected
  | case4 => exact absurd reads not_reads_unexpected

/-- The parameters that are read are those of the grammar. -/
theorem reads_parameters_iff {tokens : List Token} {names : List String} :
    Reads parameters tokens names rest ↔ Parameters tokens names rest := by
  have some_iff : Reads (identifier >>= fun name => moreParameters >>= fun others =>
      pure (name :: others)) tokens names rest ↔ Names tokens names rest := by
    simp only [reads_bind_iff, reads_identifier_iff, reads_pure_iff]
    constructor
    · rintro ⟨name, behind, rfl, others, _, reads, rfl, rfl⟩
      exact names_of_reads reads name
    · intro derived
      rcases derived.reads with ⟨name, behind, others, rfl, rfl, reads⟩
      exact ⟨name, behind, rfl, others, rest, reads, rfl, rfl⟩
  constructor
  · intro reads
    unfold Reads parameters at reads
    split at reads
    · rcases reads_done_iff.mp reads with ⟨rfl, rfl⟩
      exact .empty
    · exact .names (some_iff.mp reads)
  · rintro (_ | derived)
    · rfl
    · rcases derived.reads with ⟨name, behind, others, rfl, -, -⟩
      exact some_iff.mpr derived

end Grammar

end Monkey
