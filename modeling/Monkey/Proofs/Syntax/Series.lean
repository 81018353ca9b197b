import Mathlib.Data.List.Forall2
import Monkey.Proofs.Grammar.Soundness
import Monkey.Proofs.Parser.Failure
import Monkey.Proofs.Token.Lexes
import Monkey.Text.Listing

/-!
# Series

Expressions and pairs of expressions with commas between them. A series is read
off a listing of texts if its members are read off the texts. It fails where the
first of its members fails.
-/

namespace Monkey

open Token

/-! ## Texts of series -/

/-- The tokens of the members of a series, with a comma between neighbours. -/
def commaJoined : List (List Token) → List Token
  | [] => []
  | [tokens] => tokens
  | tokens :: parts => tokens ++ .symbol .comma :: commaJoined parts

@[simp]
theorem commaJoined_singleton (tokens : List Token) : commaJoined [tokens] = tokens := rfl

@[simp]
theorem commaJoined_cons_cons (first second : List Token) (parts : List (List Token)) :
    commaJoined (first :: second :: parts) =
      first ++ .symbol .comma :: commaJoined (second :: parts) := rfl

/-- A series begins with its first member. -/
theorem exists_commaJoined_cons (first : List Token) (parts : List (List Token)) :
    ∃ behind, commaJoined (first :: parts) = first ++ behind := by
  cases parts with
  | nil => exact ⟨[], (List.append_nil first).symm⟩
  | cons second parts => exact ⟨_, commaJoined_cons_cons first second parts⟩

/-- The tokens of a pair of a hash literal. -/
def pairTokens (pair : List Token × List Token) : List Token :=
  pair.1 ++ .symbol .colon :: pair.2

section Texts

variable {α : Type} {items : List α} {text : α → String} {tokens : α → List Token}

theorem Token.Lexes.commaSeparated
    (lexes : ∀ item ∈ items, Lexes (text item).toList (tokens item)) :
    Lexes (Text.commaSeparated (items.map text)).toList (commaJoined (items.map tokens)) := by
  induction items with
  | nil => exact .nil
  | cons first items inductionHypothesis =>
    have others := inductionHypothesis fun item member => lexes item (.tail _ member)
    cases items with
    | nil => exact lexes first (.head _)
    | cons second items =>
      have separated := (lexes first (.head _)).separated .comma (by decide)
        (others.blank (c := ' ') (by decide))
      simpa [Symbol.spelling] using separated

theorem Token.Lexes.pair {key value : String} {pair : List Token × List Token}
    (first : Lexes key.toList pair.1) (second : Lexes value.toList pair.2) :
    Lexes (key ++ ":" ++ value).toList (pairTokens pair) := by
  have separated := first.separated .colon (by decide) second
  simpa [Symbol.spelling, pairTokens] using separated

end Texts

namespace Grammar

open Monkey.Parser

/-! ## Series that are derived -/

/-- The tokens are an expression, and an operand of everything around it, unless
a call or an indexing comes next. -/
def Stands (tokens : List Token) (value : Expr) : Prop :=
  ∀ rest, NoneNext suffixOpeners rest → Expression .unary (tokens ++ rest) value rest

section Stands

variable {tokens : List Token} {value : Expr} {close : Symbol}

theorem Stands.of_chain (chain : ∀ rest, Chain (tokens ++ rest) value rest) :
    Stands tokens value :=
  fun rest longest => .chain (chain rest) longest

theorem Stands.unary (stands : Stands tokens value) (op : UnaryOp) :
    Stands (.symbol op.mark :: tokens) (.unary op value) :=
  fun rest longest => .unary (stands rest longest)

/-- An expression in front of a symbol that neither calls nor indexes. -/
theorem Stands.expression (stands : Stands tokens value) (mark : Symbol)
    (foreign : mark ∉ suffixOpeners) (layer : Layer) (rest : List Token) :
    Expression layer (tokens ++ .symbol mark :: rest) value (.symbol mark :: rest) := by
  refine (stands _ fun opener member head => ?_).weaken layer.level_le_unary
  cases head
  exact foreign member

/-- An expression that stands alone is a sentence. -/
theorem Stands.sentence (stands : Stands tokens value) : Sentence tokens [.expr value] := by
  have derived := stands [] (by simp [NoneNext])
  rw [List.append_nil] at derived
  exact .cons (.expr (derived.weaken (by decide)) (.omitted (by simp [NoneNext]))) .nil

theorem items_of_stands (foreign : close ∉ suffixOpeners) {part : List Token}
    {parts : List (List Token)} {values : List Expr}
    (stand : List.Forall₂ Stands (part :: parts) values) (rest : List Token) :
    Items close (commaJoined (part :: parts) ++ .symbol close :: rest) values rest := by
  induction parts generalizing part values with
  | nil =>
    rcases stand with _ | ⟨first, _ | _⟩
    exact .last (first.expression close foreign .equality rest)
  | cons next parts inductionHypothesis =>
    rcases stand with _ | ⟨first, others⟩
    rw [commaJoined_cons_cons, List.append_assoc, List.cons_append]
    exact .more (first.expression .comma (by decide) .equality _) (inductionHypothesis others)

theorem listing_of_stands (foreign : close ∉ suffixOpeners) {parts : List (List Token)}
    {values : List Expr} (stand : List.Forall₂ Stands parts values) (rest : List Token) :
    Listing close (commaJoined parts ++ .symbol close :: rest) values rest := by
  cases parts with
  | nil =>
    cases stand
    exact .empty
  | cons part parts => exact .items (items_of_stands foreign stand rest)

theorem pairs_of_stands {parts : List (List Token × List Token)} {entries : List (Expr × Expr)}
    (stand : List.Forall₂ (fun part entry => Stands part.1 entry.1 ∧ Stands part.2 entry.2)
      parts entries) (rest : List Token) :
    Pairs (commaJoined (parts.map pairTokens) ++ .symbol .rightBrace :: rest) entries rest := by
  induction stand with
  | nil => exact .empty
  | @cons part entry parts entries first others inductionHypothesis =>
    have key := first.1.expression .colon (by decide) .equality
    cases others with
    | nil =>
      simp only [List.map_cons, List.map_nil, commaJoined_singleton, pairTokens, List.append_assoc,
        List.cons_append]
      exact .last (key _) (first.2.expression .rightBrace (by decide) .equality rest)
    | cons second others =>
      simp only [List.map_cons, commaJoined_cons_cons, pairTokens, List.append_assoc,
        List.cons_append] at inductionHypothesis ⊢
      exact .more (key _) (first.2.expression .comma (by decide) .equality _) inductionHypothesis

end Stands

end Grammar

/-! ## Series that fail -/

namespace Grammar

open Monkey.Parser

variable {digits : String}

theorem Stands.reads {tokens : List Token} {value : Expr} (stands : Stands tokens value)
    (mark : Symbol) (none : mark.follow? = none) (foreign : mark ∉ suffixOpeners)
    (rest : List Token) :
    Reads (limit (Parser.expression · .lowest)) (tokens ++ .symbol mark :: rest) value
      (.symbol mark :: rest) :=
  reads_of_passes none fun ends =>
    (stands.expression mark foreign .equality rest).passes ends (by decide)

/-- A series fails with the first of its members that does. -/
theorem items_fails (close : Symbol) {parts : List (List Token)}
    (stand : ∀ part ∈ parts, ¬ Stuck digits part → ∃ value, Stands part value)
    (stuck : ∃ part ∈ parts, Stuck digits part) (rest : List Token) :
    Fails (limit (items · close)) (commaJoined parts ++ rest) (.invalidInteger digits) := by
  induction parts with
  | nil =>
    rcases stuck with ⟨_, member, -⟩
    cases member
  | cons part parts inductionHypothesis =>
    rw [limit_items]
    by_cases here : Stuck digits part
    · rcases exists_commaJoined_cons part parts with ⟨behind, joined⟩
      rw [joined, List.append_assoc]
      exact ((here _).expression .lowest).bind _
    · rcases stand part (.head _) here with ⟨value, stands⟩
      have later : ∃ other ∈ parts, Stuck digits other := by
        simpa only [List.exists_mem_cons_iff, here, false_or] using stuck
      have fails := inductionHypothesis (fun other member => stand other (.tail _ member)) later
      rcases later with ⟨other, member, -⟩
      rcases List.exists_cons_of_ne_nil (List.ne_nil_of_mem member) with ⟨next, others, rfl⟩
      rw [commaJoined_cons_cons, List.append_assoc, List.cons_append]
      exact (stands.reads .comma rfl (by decide) _).bind_fails
        (Reads.bind_fails (accept_cons_self .comma _) (fails.bind _))

theorem listing_fails {close : Symbol} (closes : .symbol close ∈ closers)
    {parts : List (List Token)}
    (stand : ∀ part ∈ parts, ¬ Stuck digits part → ∃ value, Stands part value)
    (stuck : ∃ part ∈ parts, Stuck digits part) (rest : List Token) :
    Fails (limit (listing · close)) (commaJoined parts ++ rest) (.invalidInteger digits) := by
  have fails := items_fails close stand stuck rest
  rw [limit_items] at fails
  rw [limit_listing, limit_items]
  exact fails.unless closes

section Pairs

variable {part : List Token × List Token} {key value : Expr}

/-- A pair fails with its key, or behind its key with its value. -/
theorem pairs_fails_of_pair (keyStands : ¬ Stuck digits part.1 → ∃ key, Stands part.1 key)
    (stuck : Stuck digits part.1 ∨ Stuck digits part.2) (rest : List Token) :
    Fails (limit pairs) (pairTokens part ++ rest) (.invalidInteger digits) := by
  rw [limit_pairs, pairTokens, List.append_assoc, List.cons_append]
  refine Fails.unless (by simp [closers]) ?_
  by_cases keyStuck : Stuck digits part.1
  · exact ((keyStuck _).expression .lowest).bind _
  · rcases keyStands keyStuck with ⟨key, stands⟩
    have valueStuck := stuck.resolve_left keyStuck
    refine (stands.reads .colon rfl (by decide) _).bind_fails ?_
    refine (reads_expect_cons .colon _).bind_fails ?_
    exact ((valueStuck _).expression .lowest).bind _

/-- Behind a pair that is read, the pairs fail with the others. -/
theorem pairs_fails_of_others (keyStands : Stands part.1 key) (valueStands : Stands part.2 value)
    {others : List Token} (fails : Fails (limit pairs) others (.invalidInteger digits)) :
    Fails (limit pairs) (pairTokens part ++ .symbol .comma :: others)
      (.invalidInteger digits) := by
  rw [limit_pairs, pairTokens, List.append_assoc, List.cons_append]
  refine Fails.unless (by simp [closers]) ?_
  refine (keyStands.reads .colon rfl (by decide) _).bind_fails ?_
  refine (reads_expect_cons .colon _).bind_fails ?_
  refine (valueStands.reads .comma rfl (by decide) _).bind_fails ?_
  refine Reads.bind_fails (accept_of_head?_ne (by simp)) ?_
  exact (reads_expect_cons .comma _).bind_fails (fails.bind _)

/-- The pairs of a hash literal fail with the first key or value that does. -/
theorem pairs_fails {parts : List (List Token × List Token)}
    (keysStand : ∀ part ∈ parts, ¬ Stuck digits part.1 → ∃ key, Stands part.1 key)
    (valuesStand : ∀ part ∈ parts, ¬ Stuck digits part.2 → ∃ value, Stands part.2 value)
    (stuck : ∃ part ∈ parts, Stuck digits part.1 ∨ Stuck digits part.2) (rest : List Token) :
    Fails (limit pairs) (commaJoined (parts.map pairTokens) ++ rest) (.invalidInteger digits) := by
  induction parts with
  | nil =>
    rcases stuck with ⟨_, member, -⟩
    cases member
  | cons part parts inductionHypothesis =>
    by_cases here : Stuck digits part.1 ∨ Stuck digits part.2
    · rcases exists_commaJoined_cons (pairTokens part) (parts.map pairTokens) with
        ⟨behind, joined⟩
      rw [List.map_cons, joined, List.append_assoc]
      exact pairs_fails_of_pair (keysStand part (.head _)) here _
    · rcases keysStand part (.head _) fun stuck => here (.inl stuck) with ⟨key, keyStands⟩
      rcases valuesStand part (.head _) fun stuck => here (.inr stuck) with ⟨value, valueStands⟩
      have later : ∃ other ∈ parts, Stuck digits other.1 ∨ Stuck digits other.2 := by
        simpa only [List.exists_mem_cons_iff, here, false_or] using stuck
      have fails := inductionHypothesis (fun other member => keysStand other (.tail _ member))
        (fun other member => valuesStand other (.tail _ member)) later
      rcases later with ⟨other, member, -⟩
      rcases List.exists_cons_of_ne_nil (List.ne_nil_of_mem member) with ⟨next, others, rfl⟩
      rw [List.map_cons, List.map_cons, commaJoined_cons_cons, ← List.map_cons,
        List.append_assoc, List.cons_append]
      exact pairs_fails_of_others keyStands valueStands fails

end Pairs

end Grammar

end Monkey
