import Monkey.Syntax.Draft

/-!
# The depth of parsing

The parsers of a program take a bound on the depth of their calls. Here it is
shown that the bound is only there for the sake of termination: every parser
leaves at most the tokens that it was given, operands, expressions and
statements take at least one of them, and hence all depths from
`sufficientDepth` on give the same draft.
-/

namespace Monkey.Parser

variable {α β : Type}

/-! ## Parsers that attempt no statement -/

/-- The parser collects no diagnostics and leaves some of the last tokens. -/
def Silent (parser : Parser α) : Prop :=
  ∀ tokens, (parser tokens).diagnostics = [] ∧ (parser tokens).rest <:+ tokens

theorem silent_done (value : α) : Silent (done value) := fun _ => ⟨rfl, List.suffix_refl _⟩

theorem silent_pure (value : α) : Silent (pure value : Parser α) := silent_done value

theorem silent_fail (diagnostic : Diagnostic) : Silent (fail diagnostic : Parser α) :=
  fun _ => ⟨rfl, List.suffix_refl _⟩

theorem silent_integer (digits : String) : Silent (integer digits) := by
  intro tokens
  simp only [integer]
  split
  · exact silent_done _ tokens
  · exact silent_fail _ tokens

theorem Silent.bind {parser : Parser α} {next : α → Parser β} (first : Silent parser)
    (second : ∀ value, Silent (next value)) : Silent (parser >>= next) := by
  intro tokens
  have firstSilent := first tokens
  rcases parsed : parser tokens with ⟨diagnostics, diagnostic | value, rest⟩
  · rw [parsed] at firstSilent
    rw [bind_apply_of_error parsed]
    exact firstSilent
  · rw [parsed] at firstSilent
    rw [bind_apply_of_ok parsed]
    have secondSilent := second value rest
    exact ⟨List.append_eq_nil_iff.mpr ⟨firstSilent.1, secondSilent.1⟩,
      secondSilent.2.trans firstSilent.2⟩

theorem silent_expect (mark : Symbol) : Silent (expect mark) := by
  intro tokens
  unfold expect
  split
  · split
    · exact ⟨rfl, List.suffix_cons _ _⟩
    · exact silent_fail _ _
  · exact silent_fail _ _

theorem silent_accept (mark : Symbol) : Silent (accept mark) := by
  intro tokens
  unfold accept
  split
  · split
    · exact ⟨rfl, List.suffix_cons _ _⟩
    · exact silent_done _ _
  · exact silent_done _ _

theorem silent_identifier : Silent identifier := by
  intro tokens
  unfold identifier
  split
  · exact ⟨rfl, List.suffix_cons _ _⟩
  · exact silent_fail _ _

theorem silent_moreParameters : Silent moreParameters := by
  intro tokens
  fun_induction moreParameters tokens with
  | case1 => exact ⟨rfl, List.suffix_cons _ _⟩
  | case2 name rest inductionHypothesis =>
    exact ⟨inductionHypothesis.1,
      (inductionHypothesis.2.trans (List.suffix_cons _ _)).trans (List.suffix_cons _ _)⟩
  | case3 => exact ⟨rfl, List.suffix_cons _ _⟩
  | case4 => exact silent_fail _ _

theorem silent_parameters : Silent parameters := by
  intro tokens
  unfold parameters
  split
  · exact ⟨rfl, List.suffix_cons _ _⟩
  · exact (silent_identifier.bind fun _ => silent_moreParameters.bind fun _ => silent_pure _) _

/-! ## Parsers that shrink their tokens -/

/-- A parser never leaves more tokens than it was given. -/
def Shrinks (parser : Parser α) : Prop :=
  ∀ tokens, (parser tokens).rest.length ≤ tokens.length

theorem Silent.shrinks {parser : Parser α} (silent : Silent parser) : Shrinks parser :=
  fun tokens => (silent tokens).2.length_le

theorem shrinks_pure (value : α) : Shrinks (pure value : Parser α) := (silent_pure value).shrinks

theorem Shrinks.bind {parser : Parser α} {next : α → Parser β} (first : Shrinks parser)
    (second : ∀ value, Shrinks (next value)) : Shrinks (parser >>= next) := by
  intro tokens
  have firstLe := first tokens
  rcases parsed : parser tokens with ⟨diagnostics, outcome | value, rest⟩
  · rw [parsed] at firstLe
    rw [bind_apply_of_error parsed]
    exact firstLe
  · rw [parsed] at firstLe
    rw [bind_apply_of_ok parsed]
    exact Nat.le_trans (second value rest) firstLe

theorem shrinks_expect (mark : Symbol) : Shrinks (expect mark) := (silent_expect mark).shrinks

theorem shrinks_accept (mark : Symbol) : Shrinks (accept mark) := (silent_accept mark).shrinks

theorem shrinks_identifier : Shrinks identifier := silent_identifier.shrinks

theorem shrinks_integer (digits : String) : Shrinks (integer digits) :=
  (silent_integer digits).shrinks

theorem shrinks_parameters : Shrinks parameters := silent_parameters.shrinks

/-- The parsers of a depth shrink their tokens. -/
structure Shrinking (depth : Nat) : Prop where
  expression : ∀ floor, Shrinks (expression depth floor)
  extend : ∀ floor left, Shrinks (extend depth floor left)
  continued : ∀ left follow, Shrinks (continued depth left follow)
  operand : Shrinks (operand depth)
  grouped : Shrinks (grouped depth)
  conditional : Shrinks (conditional depth)
  otherwise : Shrinks (otherwise depth)
  functionLiteral : Shrinks (functionLiteral depth)
  listing : ∀ close, Shrinks (listing depth close)
  items : ∀ close, Shrinks (items depth close)
  pairs : Shrinks (pairs depth)
  statement : Shrinks (statement depth)
  block : ∀ tokens, (block depth tokens).2.length ≤ tokens.length

theorem Shrinks.ofDraft {read : List Token → Draft × List Token}
    (le : ∀ tokens, (read tokens).2.length ≤ tokens.length) : Shrinks (ofDraft read) := le

theorem length_attempt_le {parser : Parser Stmt} (shrinks : Shrinks parser)
    (tokens : List Token) : (attempt parser tokens).2.length ≤ tokens.length := by
  have le := shrinks tokens
  unfold attempt
  split <;> rename_i parsed <;> rw [parsed] at le <;> exact le

namespace Shrinking

variable {depth : Nat}

theorem extend_succ (shrinking : Shrinking depth) (floor : Level) (left : Expr) :
    Shrinks (Parser.extend (depth + 1) floor left) := by
  intro tokens
  cases tokens with
  | nil => exact Nat.le_refl _
  | cons token rest =>
    simp only [Parser.extend]
    split
    · exact Nat.le_refl _
    · split
      · exact Nat.le_succ_of_le
          (((shrinking.continued left _).bind (shrinking.extend floor)) rest)
      · exact Nat.le_refl _

theorem continued_succ (shrinking : Shrinking depth) (left : Expr) (follow : Follow) :
    Shrinks (Parser.continued (depth + 1) left follow) := by
  cases follow with
  | binary op => exact (shrinking.expression op.level).bind fun _ => shrinks_pure _
  | call => exact (shrinking.listing _).bind fun _ => shrinks_pure _
  | index =>
    exact (shrinking.expression _).bind fun _ => (shrinks_expect _).bind fun _ => shrinks_pure _

theorem operand_succ (shrinking : Shrinking depth) : Shrinks (Parser.operand (depth + 1)) := by
  intro tokens
  simp only [Parser.operand]
  split
  case h_1 => exact Nat.le_succ _
  case h_2 digits rest => exact Nat.le_succ_of_le (shrinks_integer digits rest)
  case h_3 => exact Nat.le_succ _
  case h_4 => exact Nat.le_succ _
  case h_5 => exact Nat.le_succ _
  case h_6 rest => exact Nat.le_succ_of_le (shrinking.expression _ rest)
  case h_7 rest => exact Nat.le_succ_of_le (shrinking.expression _ rest)
  case h_8 rest => exact Nat.le_succ_of_le (shrinking.grouped rest)
  case h_9 rest => exact Nat.le_succ_of_le (shrinking.conditional rest)
  case h_10 rest => exact Nat.le_succ_of_le (shrinking.functionLiteral rest)
  case h_11 rest => exact Nat.le_succ_of_le (shrinking.listing _ rest)
  case h_12 rest => exact Nat.le_succ_of_le (shrinking.pairs rest)
  case h_13 => exact Nat.le_succ _
  case h_14 => exact Nat.le_refl _

theorem grouped_succ (shrinking : Shrinking depth) : Shrinks (Parser.grouped (depth + 1)) :=
  (shrinking.expression _).bind fun _ => (shrinks_expect _).bind fun _ => shrinks_pure _

theorem conditional_succ (shrinking : Shrinking depth) :
    Shrinks (Parser.conditional (depth + 1)) :=
  (shrinks_expect _).bind fun _ => shrinking.grouped.bind fun _ => (shrinks_expect _).bind fun _ =>
    (Shrinks.ofDraft shrinking.block).bind fun _ => shrinking.otherwise.bind fun _ =>
      shrinks_pure _

theorem otherwise_succ (shrinking : Shrinking depth) :
    Shrinks (Parser.otherwise (depth + 1)) := by
  intro tokens
  simp only [Parser.otherwise]
  split
  · exact Nat.le_succ_of_le (((shrinks_expect _).bind fun _ =>
      (Shrinks.ofDraft shrinking.block).bind fun _ => shrinks_pure _) _)
  · exact Nat.le_refl _

theorem functionLiteral_succ (shrinking : Shrinking depth) :
    Shrinks (Parser.functionLiteral (depth + 1)) :=
  (shrinks_expect _).bind fun _ => shrinks_parameters.bind fun _ => (shrinks_expect _).bind fun _ =>
    (Shrinks.ofDraft shrinking.block).bind fun _ => shrinks_pure _

theorem listing_succ (shrinking : Shrinking depth) (close : Symbol) :
    Shrinks (Parser.listing (depth + 1) close) := by
  refine (shrinks_accept _).bind fun accepted => ?_
  split
  · exact shrinks_pure _
  · exact shrinking.items close

theorem items_succ (shrinking : Shrinking depth) (close : Symbol) :
    Shrinks (Parser.items (depth + 1) close) := by
  refine (shrinking.expression _).bind fun item => (shrinks_accept _).bind fun accepted => ?_
  split
  · exact (shrinking.items close).bind fun _ => shrinks_pure _
  · exact (shrinks_expect _).bind fun _ => shrinks_pure _

theorem pairs_succ (shrinking : Shrinking depth) : Shrinks (Parser.pairs (depth + 1)) := by
  refine (shrinks_accept _).bind fun accepted => ?_
  split
  · exact shrinks_pure _
  · refine (shrinking.expression _).bind fun key => (shrinks_expect _).bind fun _ =>
      (shrinking.expression _).bind fun value => (shrinks_accept _).bind fun closed => ?_
    split
    · exact shrinks_pure _
    · exact (shrinks_expect _).bind fun _ => shrinking.pairs.bind fun _ => shrinks_pure _

/-- An expression and a semicolon, which may be missing. -/
theorem ending (shrinking : Shrinking depth) (build : Expr → Stmt) : Shrinks (do
    let value ← Parser.expression depth .lowest
    let _ ← accept .semicolon
    return build value) :=
  (shrinking.expression _).bind fun _ => (shrinks_accept _).bind fun _ => shrinks_pure _

theorem statement_succ (shrinking : Shrinking depth) :
    Shrinks (Parser.statement (depth + 1)) := by
  intro tokens
  simp only [Parser.statement]
  split
  · exact Nat.le_succ_of_le ((shrinks_identifier.bind fun _ => (shrinks_expect _).bind fun _ =>
      shrinking.ending _) _)
  · exact Nat.le_succ_of_le (shrinking.ending _ _)
  · exact shrinking.ending _ _

theorem block_succ (shrinking : Shrinking depth) (tokens : List Token) :
    (Parser.block (depth + 1) tokens).2.length ≤ tokens.length := by
  simp only [Parser.block]
  split
  · exact Nat.le_refl _
  · exact Nat.le_succ _
  · exact Nat.le_trans (shrinking.block _) (length_attempt_le shrinking.statement _)

end Shrinking

/-- Parsers of any depth shrink their tokens. -/
theorem shrinking (depth : Nat) : Shrinking depth := by
  induction depth with
  | zero =>
    constructor <;> intros <;> first | exact fun _ => Nat.le_refl _ | exact Nat.le_refl _
  | succ depth inductionHypothesis =>
    exact {
      expression := fun floor =>
        inductionHypothesis.operand.bind fun left => inductionHypothesis.extend floor left
      extend := inductionHypothesis.extend_succ
      continued := inductionHypothesis.continued_succ
      operand := inductionHypothesis.operand_succ
      grouped := inductionHypothesis.grouped_succ
      conditional := inductionHypothesis.conditional_succ
      otherwise := inductionHypothesis.otherwise_succ
      functionLiteral := inductionHypothesis.functionLiteral_succ
      listing := inductionHypothesis.listing_succ
      items := inductionHypothesis.items_succ
      pairs := inductionHypothesis.pairs_succ
      statement := inductionHypothesis.statement_succ
      block := inductionHypothesis.block_succ }

/-! ## Parsers that read alike -/

/-- Two parsers read lists of fewer than `bound` tokens alike. -/
def Agree (bound : Nat) (left right : Parser α) : Prop :=
  ∀ tokens, tokens.length < bound → left tokens = right tokens

theorem Agree.refl (bound : Nat) (parser : Parser α) : Agree bound parser parser :=
  fun _ _ => rfl

theorem Agree.bind {bound : Nat} {left right : Parser α} {leftNext rightNext : α → Parser β}
    (shrinks : Shrinks left) (first : Agree bound left right)
    (second : ∀ value, Agree bound (leftNext value) (rightNext value)) :
    Agree bound (left >>= leftNext) (right >>= rightNext) := by
  intro tokens lt
  have le := shrinks tokens
  have same := first tokens lt
  rcases parsed : left tokens with ⟨diagnostics, outcome | value, rest⟩
  · rw [bind_apply_of_error parsed, bind_apply_of_error (same ▸ parsed)]
  · rw [parsed] at le
    rw [bind_apply_of_ok parsed, bind_apply_of_ok (same ▸ parsed),
      second value rest (Nat.lt_of_le_of_lt le lt)]

/-- Behind a symbol that was taken there are fewer tokens. -/
theorem Agree.expect_bind {bound : Nat} {mark : Symbol} {left right : Unit → Parser β}
    (next : Agree bound (left ()) (right ())) :
    Agree (bound + 1) (expect mark >>= left) (expect mark >>= right) := by
  intro tokens lt
  cases tokens with
  | nil => rfl
  | cons token rest =>
    cases token with
    | symbol found =>
      by_cases same : found = mark
      · have taken : expect mark (.symbol found :: rest) = ⟨[], .ok (), rest⟩ := by
          simp [expect, same, done]
        rw [bind_apply_of_ok taken, bind_apply_of_ok taken,
          next rest (Nat.lt_of_succ_lt_succ lt)]
      · have failed : expect mark (.symbol found :: rest) =
            ⟨[], .error (.unexpectedToken (.symbol mark) (.symbol found)),
              .symbol found :: rest⟩ := by
          simp [expect, same, unexpected, fail, nextKind, Token.kind]
        rw [bind_apply_of_error failed, bind_apply_of_error failed]
    | _ => rfl

/-- Behind a symbol that was accepted there are fewer tokens. -/
theorem Agree.accept_bind {bound : Nat} {mark : Symbol} {left right : Bool → Parser β}
    (taken : Agree bound (left true) (right true))
    (passed : Agree (bound + 1) (left false) (right false)) :
    Agree (bound + 1) (accept mark >>= left) (accept mark >>= right) := by
  intro tokens lt
  by_cases next : ∃ rest, tokens = .symbol mark :: rest
  · obtain ⟨rest, rfl⟩ := next
    have accepted : accept mark (.symbol mark :: rest) = ⟨[], .ok true, rest⟩ := by
      simp [accept, done]
    rw [bind_apply_of_ok accepted, bind_apply_of_ok accepted,
      taken rest (Nat.lt_of_succ_lt_succ lt)]
  · have passedOver : accept mark tokens = ⟨[], .ok false, tokens⟩ := by
      unfold accept
      split
      · next found rest =>
        have differs : found ≠ mark := fun same => next ⟨rest, same ▸ rfl⟩
        simp [differs, done]
      · rfl
    rw [bind_apply_of_ok passedOver, bind_apply_of_ok passedOver, passed tokens lt]

/-- The parsers of two depths read lists of fewer than `bound` tokens alike, if
both depths are large enough. A parser that calls another one without taking a
token before needs one level more. -/
structure Settled (depth other bound : Nat) : Prop where
  expression : ∀ floor, 8 * bound + 2 ≤ depth → 8 * bound + 2 ≤ other →
    Agree bound (expression depth floor) (expression other floor)
  extend : ∀ floor left, 8 * bound + 1 ≤ depth → 8 * bound + 1 ≤ other →
    Agree bound (extend depth floor left) (extend other floor left)
  continued : ∀ left follow, 8 * bound + 5 ≤ depth → 8 * bound + 5 ≤ other →
    Agree bound (continued depth left follow) (continued other left follow)
  operand : 8 * bound + 1 ≤ depth → 8 * bound + 1 ≤ other →
    Agree bound (operand depth) (operand other)
  grouped : 8 * bound + 3 ≤ depth → 8 * bound + 3 ≤ other →
    Agree bound (grouped depth) (grouped other)
  conditional : 8 * bound + 1 ≤ depth → 8 * bound + 1 ≤ other →
    Agree bound (conditional depth) (conditional other)
  otherwise : 8 * bound + 1 ≤ depth → 8 * bound + 1 ≤ other →
    Agree bound (otherwise depth) (otherwise other)
  functionLiteral : 8 * bound + 1 ≤ depth → 8 * bound + 1 ≤ other →
    Agree bound (functionLiteral depth) (functionLiteral other)
  listing : ∀ close, 8 * bound + 4 ≤ depth → 8 * bound + 4 ≤ other →
    Agree bound (listing depth close) (listing other close)
  items : ∀ close, 8 * bound + 3 ≤ depth → 8 * bound + 3 ≤ other →
    Agree bound (items depth close) (items other close)
  pairs : 8 * bound + 3 ≤ depth → 8 * bound + 3 ≤ other →
    Agree bound (pairs depth) (pairs other)
  statement : 8 * bound + 3 ≤ depth → 8 * bound + 3 ≤ other →
    Agree bound (statement depth) (statement other)
  block : 8 * bound + 4 ≤ depth → 8 * bound + 4 ≤ other →
    ∀ tokens, tokens.length < bound → block depth tokens = block other tokens

theorem Agree.ofDraft {bound : Nat} {left right : List Token → Draft × List Token}
    (agree : ∀ tokens, tokens.length < bound → left tokens = right tokens) :
    Agree bound (ofDraft left) (ofDraft right) := by
  intro tokens lt
  simp only [Parser.ofDraft, agree tokens lt]

/-- An operand takes at least one token. -/
theorem length_operand_le (depth : Nat) (token : Token) (rest : List Token) :
    (operand (depth + 1) (token :: rest)).rest.length ≤ rest.length := by
  have shrinking := shrinking depth
  simp only [Parser.operand]
  split <;> rename_i eq <;> cases eq
  case h_2 => exact shrinks_integer _ _
  case h_6 => exact shrinking.expression _ _
  case h_7 => exact shrinking.expression _ _
  case h_8 => exact shrinking.grouped _
  case h_9 => exact shrinking.conditional _
  case h_10 => exact shrinking.functionLiteral _
  case h_11 => exact shrinking.listing _ _
  case h_12 => exact shrinking.pairs _
  all_goals exact Nat.le_refl _

/-- What follows a parser that takes a token does not give it back. -/
theorem length_bind_le {parser : Parser α} {next : α → Parser β}
    (shrinks : ∀ value, Shrinks (next value)) {tokens : List Token} {bound : Nat}
    (le : (parser tokens).rest.length ≤ bound) :
    ((parser >>= next) tokens).rest.length ≤ bound := by
  rcases parsed : parser tokens with ⟨diagnostics, outcome | value, rest⟩
  · rw [bind_apply_of_error parsed]
    rwa [parsed] at le
  · rw [bind_apply_of_ok parsed]
    rw [parsed] at le
    exact Nat.le_trans (shrinks value rest) le

/-- An expression takes at least one token. -/
theorem length_expression_le (depth : Nat) (floor : Level) (token : Token)
    (rest : List Token) :
    (expression (depth + 2) floor (token :: rest)).rest.length ≤ rest.length := by
  change ((operand (depth + 1) >>= extend (depth + 1) floor) (token :: rest)).rest.length ≤ _
  exact length_bind_le (fun left => (shrinking (depth + 1)).extend floor left)
    (length_operand_le depth token rest)

/-- A statement takes at least one token. -/
theorem length_statement_le (depth : Nat) (token : Token) (rest : List Token) :
    (statement (depth + 3) (token :: rest)).rest.length ≤ rest.length := by
  have shrinking := shrinking (depth + 2)
  simp only [Parser.statement]
  split
  · next eq =>
    cases eq
    exact (shrinks_identifier.bind fun _ => (shrinks_expect _).bind fun _ =>
      shrinking.ending _) _
  · next eq =>
    cases eq
    exact shrinking.ending _ _
  · exact length_bind_le (fun _ => (shrinks_accept _).bind fun _ => shrinks_pure _)
      (length_expression_le depth .lowest token rest)

/-- An attempt at a statement takes at least one token. -/
theorem length_attempt_statement_le (depth : Nat) (token : Token) (rest : List Token) :
    (attempt (statement (depth + 3)) (token :: rest)).2.length ≤ rest.length := by
  have le := length_statement_le depth token rest
  unfold attempt
  split <;> rename_i parsed <;> rw [parsed] at le <;> exact le

namespace Settled

variable {depth other bound : Nat}

theorem expression_succ (here : Settled depth other (bound + 1)) (floor : Level)
    (le : 8 * (bound + 1) + 1 ≤ depth) (otherLe : 8 * (bound + 1) + 1 ≤ other) :
    Agree (bound + 1) (Parser.expression (depth + 1) floor)
      (Parser.expression (other + 1) floor) :=
  (here.operand le otherLe).bind (shrinking depth).operand
    fun left => here.extend floor left le otherLe

theorem extend_succ (behind : Settled depth other bound) (floor : Level) (left : Expr)
    (le : 8 * (bound + 1) ≤ depth) (otherLe : 8 * (bound + 1) ≤ other) :
    Agree (bound + 1) (Parser.extend (depth + 1) floor left)
      (Parser.extend (other + 1) floor left) := by
  intro tokens lt
  cases tokens with
  | nil => rfl
  | cons token rest =>
    simp only [Parser.extend]
    split
    · rfl
    · split
      · exact ((behind.continued left _ (by omega) (by omega)).bind
          ((shrinking depth).continued left _)
          fun value => behind.extend floor value (by omega) (by omega)) rest
          (Nat.lt_of_succ_lt_succ lt)
      · rfl

theorem continued_succ (here : Settled depth other (bound + 1)) (left : Expr) (follow : Follow)
    (le : 8 * (bound + 1) + 4 ≤ depth) (otherLe : 8 * (bound + 1) + 4 ≤ other) :
    Agree (bound + 1) (Parser.continued (depth + 1) left follow)
      (Parser.continued (other + 1) left follow) := by
  have shrinking := shrinking depth
  cases follow with
  | binary op =>
    exact (here.expression _ (by omega) (by omega)).bind (shrinking.expression _)
      fun _ => .refl _ _
  | call => exact (here.listing _ le otherLe).bind (shrinking.listing _) fun _ => .refl _ _
  | index =>
    exact (here.expression _ (by omega) (by omega)).bind (shrinking.expression _)
      fun _ => .refl _ _

theorem operand_succ (behind : Settled depth other bound) (le : 8 * (bound + 1) ≤ depth)
    (otherLe : 8 * (bound + 1) ≤ other) :
    Agree (bound + 1) (Parser.operand (depth + 1)) (Parser.operand (other + 1)) := by
  intro tokens lt
  simp only [Parser.operand]
  split
  case h_6 => rw [behind.expression _ (by omega) (by omega) _ (Nat.lt_of_succ_lt_succ lt)]
  case h_7 => rw [behind.expression _ (by omega) (by omega) _ (Nat.lt_of_succ_lt_succ lt)]
  case h_8 => rw [behind.grouped (by omega) (by omega) _ (Nat.lt_of_succ_lt_succ lt)]
  case h_9 => rw [behind.conditional (by omega) (by omega) _ (Nat.lt_of_succ_lt_succ lt)]
  case h_10 => rw [behind.functionLiteral (by omega) (by omega) _ (Nat.lt_of_succ_lt_succ lt)]
  case h_11 => rw [behind.listing _ (by omega) (by omega) _ (Nat.lt_of_succ_lt_succ lt)]
  case h_12 => rw [behind.pairs (by omega) (by omega) _ (Nat.lt_of_succ_lt_succ lt)]
  all_goals rfl

theorem grouped_succ (here : Settled depth other (bound + 1)) (le : 8 * (bound + 1) + 2 ≤ depth)
    (otherLe : 8 * (bound + 1) + 2 ≤ other) :
    Agree (bound + 1) (Parser.grouped (depth + 1)) (Parser.grouped (other + 1)) :=
  (here.expression _ le otherLe).bind ((shrinking depth).expression _) fun _ => .refl _ _

/-- A block, and what does not depend on the depth. -/
theorem block_bind (behind : Settled depth other bound) (le : 8 * bound + 4 ≤ depth)
    (otherLe : 8 * bound + 4 ≤ other) {α : Type} {left right : Block → Parser α}
    (next : ∀ body, Agree bound (left body) (right body)) :
    Agree bound (ofDraft (Parser.block depth) >>= left) (ofDraft (Parser.block other) >>= right) :=
  (Agree.ofDraft (behind.block le otherLe)).bind (.ofDraft (shrinking depth).block) next

theorem conditional_succ (behind : Settled depth other bound) (le : 8 * (bound + 1) ≤ depth)
    (otherLe : 8 * (bound + 1) ≤ other) :
    Agree (bound + 1) (Parser.conditional (depth + 1)) (Parser.conditional (other + 1)) := by
  have shrinking := shrinking depth
  refine .expect_bind ?_
  refine (behind.grouped (by omega) (by omega)).bind shrinking.grouped fun _ => ?_
  refine (Agree.refl _ _).bind (shrinks_expect _) fun _ => ?_
  refine behind.block_bind (by omega) (by omega) fun _ => ?_
  exact (behind.otherwise (by omega) (by omega)).bind shrinking.otherwise fun _ => .refl _ _

theorem otherwise_succ (behind : Settled depth other bound) (le : 8 * (bound + 1) ≤ depth)
    (otherLe : 8 * (bound + 1) ≤ other) :
    Agree (bound + 1) (Parser.otherwise (depth + 1)) (Parser.otherwise (other + 1)) := by
  intro tokens lt
  simp only [Parser.otherwise]
  split
  · exact ((Agree.refl bound _).bind (shrinks_expect _) fun _ =>
      behind.block_bind (by omega) (by omega) fun _ => .refl _ _) _ (Nat.lt_of_succ_lt_succ lt)
  · rfl

theorem functionLiteral_succ (behind : Settled depth other bound) (le : 8 * (bound + 1) ≤ depth)
    (otherLe : 8 * (bound + 1) ≤ other) :
    Agree (bound + 1) (Parser.functionLiteral (depth + 1))
      (Parser.functionLiteral (other + 1)) := by
  refine .expect_bind ?_
  refine (Agree.refl _ _).bind shrinks_parameters fun _ => ?_
  refine (Agree.refl _ _).bind (shrinks_expect _) fun _ => ?_
  exact behind.block_bind (by omega) (by omega) fun _ => .refl _ _

theorem listing_succ (here : Settled depth other (bound + 1)) (close : Symbol)
    (le : 8 * (bound + 1) + 3 ≤ depth) (otherLe : 8 * (bound + 1) + 3 ≤ other) :
    Agree (bound + 1) (Parser.listing (depth + 1) close) (Parser.listing (other + 1) close) := by
  refine (Agree.refl _ _).bind (shrinks_accept _) fun accepted => ?_
  split
  · exact .refl _ _
  · exact here.items close le otherLe

theorem items_succ (here : Settled depth other (bound + 1)) (behind : Settled depth other bound)
    (close : Symbol) (le : 8 * (bound + 1) + 2 ≤ depth) (otherLe : 8 * (bound + 1) + 2 ≤ other) :
    Agree (bound + 1) (Parser.items (depth + 1) close) (Parser.items (other + 1) close) := by
  have shrinking := shrinking depth
  refine (here.expression _ le otherLe).bind (shrinking.expression _)
    fun item => .accept_bind ?_ (.refl _ _)
  exact (behind.items close (by omega) (by omega)).bind (shrinking.items close) fun _ => .refl _ _

theorem pairs_succ (here : Settled depth other (bound + 1)) (behind : Settled depth other bound)
    (le : 8 * (bound + 1) + 2 ≤ depth) (otherLe : 8 * (bound + 1) + 2 ≤ other) :
    Agree (bound + 1) (Parser.pairs (depth + 1)) (Parser.pairs (other + 1)) := by
  have shrinking := shrinking depth
  refine (Agree.refl _ _).bind (shrinks_accept _) fun accepted => ?_
  split
  · exact .refl _ _
  · refine (here.expression _ le otherLe).bind (shrinking.expression _) fun key => ?_
    refine .expect_bind ?_
    refine (behind.expression _ (by omega) (by omega)).bind (shrinking.expression _)
      fun value => (Agree.refl _ _).bind (shrinks_accept _) fun closed => ?_
    split
    · exact .refl _ _
    · exact (Agree.refl _ _).bind (shrinks_expect _) fun _ =>
        (behind.pairs (by omega) (by omega)).bind shrinking.pairs fun _ => .refl _ _

/-- An expression and a semicolon, which may be missing. -/
theorem ending (here : Settled depth other (bound + 1)) (build : Expr → Stmt)
    (le : 8 * (bound + 1) + 2 ≤ depth) (otherLe : 8 * (bound + 1) + 2 ≤ other) :
    Agree (bound + 1)
      (do
        let value ← Parser.expression depth .lowest
        let _ ← accept .semicolon
        return build value)
      (do
        let value ← Parser.expression other .lowest
        let _ ← accept .semicolon
        return build value) :=
  (here.expression _ le otherLe).bind ((shrinking depth).expression _) fun _ => .refl _ _

theorem statement_succ (here : Settled depth other (bound + 1))
    (le : 8 * (bound + 1) + 2 ≤ depth) (otherLe : 8 * (bound + 1) + 2 ≤ other) :
    Agree (bound + 1) (Parser.statement (depth + 1)) (Parser.statement (other + 1)) := by
  intro tokens lt
  simp only [Parser.statement]
  split
  · exact ((Agree.refl _ _).bind shrinks_identifier fun _ =>
      (Agree.refl _ _).bind (shrinks_expect _) fun _ => here.ending _ le otherLe) _
      (Nat.lt_of_succ_lt lt)
  · exact here.ending _ le otherLe _ (Nat.lt_of_succ_lt lt)
  · exact here.ending _ le otherLe _ lt

theorem attempt_eq (here : Settled depth other bound) (le : 8 * bound + 3 ≤ depth)
    (otherLe : 8 * bound + 3 ≤ other) {tokens : List Token} (lt : tokens.length < bound) :
    attempt (Parser.statement depth) tokens = attempt (Parser.statement other) tokens := by
  simp only [attempt, here.statement le otherLe tokens lt]

theorem block_succ (here : Settled depth other (bound + 1)) (behind : Settled depth other bound)
    (le : 8 * (bound + 1) + 3 ≤ depth) (otherLe : 8 * (bound + 1) + 3 ≤ other)
    {tokens : List Token} (lt : tokens.length < bound + 1) :
    Parser.block (depth + 1) tokens = Parser.block (other + 1) tokens := by
  cases tokens with
  | nil => rfl
  | cons token rest =>
    have first := here.attempt_eq le otherLe lt
    simp only [Parser.block]
    split
    · rfl
    · rfl
    · obtain ⟨depth, rfl⟩ : ∃ n, depth = n + 3 := ⟨depth - 3, by omega⟩
      have shorter := length_attempt_statement_le depth token rest
      rw [← first, behind.block (by omega) (by omega) _
        (Nat.lt_of_le_of_lt shorter (Nat.lt_of_succ_lt_succ lt))]

end Settled

/-- Parsers that are deep enough for the number of tokens read alike. -/
theorem settled (depth other bound : Nat) : Settled depth other bound := by
  induction depth generalizing other bound with
  | zero => constructor <;> intros <;> omega
  | succ depth inductionHypothesis =>
    cases other with
    | zero => constructor <;> intros <;> omega
    | succ other =>
      cases bound with
      | zero =>
        constructor <;> intros <;> first
          | exact fun _ lt => absurd lt (Nat.not_lt_zero _)
          | (rename_i lt; exact absurd lt (Nat.not_lt_zero _))
      | succ bound =>
        -- A parser goes on either with the same tokens, or with fewer of them.
        have here := inductionHypothesis other (bound + 1)
        have behind := inductionHypothesis other bound
        constructor
        case expression =>
          exact fun floor le otherLe => here.expression_succ floor (by omega) (by omega)
        case extend =>
          exact fun floor left le otherLe => behind.extend_succ floor left (by omega) (by omega)
        case continued =>
          exact fun left follow le otherLe =>
            here.continued_succ left follow (by omega) (by omega)
        case operand => exact fun le otherLe => behind.operand_succ (by omega) (by omega)
        case grouped => exact fun le otherLe => here.grouped_succ (by omega) (by omega)
        case conditional => exact fun le otherLe => behind.conditional_succ (by omega) (by omega)
        case otherwise => exact fun le otherLe => behind.otherwise_succ (by omega) (by omega)
        case functionLiteral =>
          exact fun le otherLe => behind.functionLiteral_succ (by omega) (by omega)
        case listing =>
          exact fun close le otherLe => here.listing_succ close (by omega) (by omega)
        case items =>
          exact fun close le otherLe => here.items_succ behind close (by omega) (by omega)
        case pairs => exact fun le otherLe => here.pairs_succ behind (by omega) (by omega)
        case statement => exact fun le otherLe => here.statement_succ (by omega) (by omega)
        case block =>
          exact fun le otherLe _ lt => here.block_succ behind (by omega) (by omega) lt

/-- A program is its first statement, if that can be read, and the program
behind it. -/
theorem program_cons (depth : Nat) (token : Token) (rest : List Token) :
    program (depth + 1) (token :: rest) =
      (attempt (statement depth) (token :: rest)).1 ++
        program depth (attempt (statement depth) (token :: rest)).2 := rfl

/-- Programs are read alike by parsers that are deep enough for the number of
tokens. -/
theorem program_eq_program {depth other : Nat} (bound : Nat) {tokens : List Token}
    (lt : tokens.length < bound) (le : 8 * bound + 4 ≤ depth)
    (otherLe : 8 * bound + 4 ≤ other) : program depth tokens = program other tokens := by
  induction depth generalizing other bound tokens with
  | zero => omega
  | succ depth inductionHypothesis =>
    cases other with
    | zero => omega
    | succ other =>
      cases tokens with
      | nil => rfl
      | cons token rest =>
        obtain ⟨bound, rfl⟩ : ∃ n, bound = n + 1 := ⟨bound - 1, by omega⟩
        have first := (settled depth other (bound + 1)).attempt_eq (by omega) (by omega) lt
        have shorter : (attempt (statement depth) (token :: rest)).2.length < bound := by
          obtain ⟨depth, rfl⟩ : ∃ n, depth = n + 3 := ⟨depth - 3, by omega⟩
          exact Nat.lt_of_le_of_lt (length_attempt_statement_le depth token rest)
            (Nat.lt_of_succ_lt_succ lt)
        have behind : program depth (attempt (statement depth) (token :: rest)).2 =
            program other (attempt (statement depth) (token :: rest)).2 :=
          inductionHypothesis bound shorter (by omega) (by omega)
        rw [program_cons, program_cons, ← first, behind]

end Monkey.Parser

namespace Monkey.Draft

/-- A program is read alike at every sufficient depth. -/
theorem ofTokens_eq_program {tokens : List Token} {depth : Nat}
    (sufficient : Parser.sufficientDepth tokens.length ≤ depth) :
    ofTokens tokens = Parser.program depth tokens := by
  unfold Parser.sufficientDepth at sufficient
  exact Parser.program_eq_program (tokens.length + 1) (Nat.lt_succ_self _)
    (by unfold Parser.sufficientDepth; omega) (by omega)

@[simp]
theorem ofTokens_nil : ofTokens [] = empty := rfl

/-- A program is its first statement, if that can be read, and the program
behind it. -/
theorem ofTokens_cons {token : Token} {rest : List Token} {depth : Nat}
    (sufficient : Parser.sufficientDepth (token :: rest).length ≤ depth + 1) :
    ofTokens (token :: rest) =
      (Parser.attempt (Parser.statement depth) (token :: rest)).1 ++
        ofTokens (Parser.attempt (Parser.statement depth) (token :: rest)).2 := by
  have enough : Parser.sufficientDepth
      (Parser.attempt (Parser.statement depth) (token :: rest)).2.length ≤ depth := by
    unfold Parser.sufficientDepth at sufficient ⊢
    obtain ⟨depth, rfl⟩ : ∃ n, depth = n + 3 := ⟨depth - 3, by omega⟩
    have shorter := Parser.length_attempt_statement_le depth token rest
    rw [List.length_cons] at sufficient
    omega
  rw [ofTokens_eq_program sufficient, Parser.program_cons, ofTokens_eq_program enough]

end Monkey.Draft
