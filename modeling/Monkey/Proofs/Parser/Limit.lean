import Monkey.Syntax.Draft.Depth

/-!
# Parsers without a depth

The parsers of a program converge: from some depth on they read a given list of
tokens alike. Their limits are parsers that need no depth, and call each other
by the same equations as the parsers of a fixed depth.
-/

namespace Monkey.Parser

variable {α β : Type}

/-- From the depth `8 * bound + 5` on, the parsers of a family read lists of
fewer than `bound` tokens like one parser that has no depth. -/
structure Converges (family : Nat → Parser α) (parser : Parser α) : Prop where
  shrinks : ∀ depth, Shrinks (family depth)
  agree : ∀ bound depth, 8 * bound + 5 ≤ depth → Agree bound (family depth) parser

namespace Converges

theorem const {parser : Parser α} (shrinks : Shrinks parser) :
    Converges (fun _ => parser) parser :=
  ⟨fun _ => shrinks, fun _ _ _ => .refl _ _⟩

theorem bind {first : Nat → Parser α} {next : α → Nat → Parser β} {parser : Parser α}
    {later : α → Parser β} (converges : Converges first parser)
    (nextConverges : ∀ value, Converges (next value) (later value)) :
    Converges (fun depth => first depth >>= fun value => next value depth)
      (parser >>= later) where
  shrinks depth :=
    (converges.shrinks depth).bind fun value => (nextConverges value).shrinks depth
  agree bound depth le :=
    (converges.agree bound depth le).bind (converges.shrinks depth)
      fun value => (nextConverges value).agree bound depth le

/-- The first depth does not matter. -/
theorem succ {family : Nat → Parser α} {parser : Parser α} (converges : Converges family parser) :
    Converges (fun depth => family (depth + 1)) parser where
  shrinks depth := converges.shrinks (depth + 1)
  agree bound depth le := converges.agree bound (depth + 1) (Nat.le_succ_of_le le)

theorem unique {family : Nat → Parser α} {parser other : Parser α}
    (converges : Converges family parser) (same : Converges family other) : parser = other := by
  funext tokens
  have lt : tokens.length < tokens.length + 1 := Nat.lt_succ_self _
  exact (converges.agree _ _ (Nat.le_refl _) tokens lt).symm.trans
    (same.agree _ _ (Nat.le_refl _) tokens lt)

end Converges

/-- What parsers of increasing depth converge to. -/
def limit (family : Nat → Parser α) : Parser α := fun tokens =>
  family (sufficientDepth tokens.length) tokens

theorem shrinks_limit {family : Nat → Parser α} (shrinks : ∀ depth, Shrinks (family depth)) :
    Shrinks (limit family) :=
  fun tokens => shrinks _ tokens

/-- A family converges to its limit if any two parsers that are deep enough
agree. -/
theorem converges_limit {family : Nat → Parser α} (shrinks : ∀ depth, Shrinks (family depth))
    (agree : ∀ bound depth other, 8 * bound + 5 ≤ depth → 8 * bound + 5 ≤ other →
      Agree bound (family depth) (family other)) : Converges family (limit family) where
  shrinks := shrinks
  agree bound depth le tokens lt :=
    agree (tokens.length + 1) _ _ (by omega) (by unfold sufficientDepth; omega) tokens
      (Nat.lt_succ_self _)

/-- The depth at which a limit reads a list is a successor, and its predecessor
is still enough for lists that are not longer. -/
theorem exists_depth (tokens : List Token) :
    ∃ depth, sufficientDepth tokens.length = depth + 1 ∧
      8 * (tokens.length + 1) + 5 ≤ depth := by
  refine ⟨8 * (tokens.length + 1) + 7, ?_, ?_⟩
  · unfold sufficientDepth
    omega
  · omega

/-- A limit reads like the limit of what its parsers unfold to, also if they
take tokens first. -/
theorem limit_apply_of_unfolds {family step : Nat → Parser α} {parser : Parser α}
    (converges : Converges step parser) {tokens rest : List Token}
    (le : rest.length ≤ tokens.length)
    (unfolds : ∀ depth, family (depth + 1) tokens = step depth rest) :
    limit family tokens = parser rest := by
  rcases exists_depth tokens with ⟨depth, eq, enough⟩
  rw [limit, eq, unfolds]
  exact converges.agree _ _ enough rest (Nat.lt_succ_of_le le)

/-! ## The parsers of a program converge -/

theorem converges_expression (floor : Level) :
    Converges (expression · floor) (limit (expression · floor)) :=
  converges_limit (fun depth => (shrinking depth).expression floor)
    fun bound depth other le otherLe =>
      (settled depth other bound).expression floor (by omega) (by omega)

theorem converges_extend (floor : Level) (left : Expr) :
    Converges (extend · floor left) (limit (extend · floor left)) :=
  converges_limit (fun depth => (shrinking depth).extend floor left)
    fun bound depth other le otherLe =>
      (settled depth other bound).extend floor left (by omega) (by omega)

theorem converges_continued (left : Expr) (follow : Follow) :
    Converges (continued · left follow) (limit (continued · left follow)) :=
  converges_limit (fun depth => (shrinking depth).continued left follow)
    fun bound depth other le otherLe =>
      (settled depth other bound).continued left follow le otherLe

theorem converges_operand : Converges operand (limit operand) :=
  converges_limit (fun depth => (shrinking depth).operand)
    fun bound depth other le otherLe =>
      (settled depth other bound).operand (by omega) (by omega)

theorem converges_grouped : Converges grouped (limit grouped) :=
  converges_limit (fun depth => (shrinking depth).grouped)
    fun bound depth other le otherLe =>
      (settled depth other bound).grouped (by omega) (by omega)

theorem converges_conditional : Converges conditional (limit conditional) :=
  converges_limit (fun depth => (shrinking depth).conditional)
    fun bound depth other le otherLe =>
      (settled depth other bound).conditional (by omega) (by omega)

theorem converges_otherwise : Converges otherwise (limit otherwise) :=
  converges_limit (fun depth => (shrinking depth).otherwise)
    fun bound depth other le otherLe =>
      (settled depth other bound).otherwise (by omega) (by omega)

theorem converges_functionLiteral : Converges functionLiteral (limit functionLiteral) :=
  converges_limit (fun depth => (shrinking depth).functionLiteral)
    fun bound depth other le otherLe =>
      (settled depth other bound).functionLiteral (by omega) (by omega)

theorem converges_listing (close : Symbol) :
    Converges (listing · close) (limit (listing · close)) :=
  converges_limit (fun depth => (shrinking depth).listing close)
    fun bound depth other le otherLe =>
      (settled depth other bound).listing close (by omega) (by omega)

theorem converges_items (close : Symbol) :
    Converges (items · close) (limit (items · close)) :=
  converges_limit (fun depth => (shrinking depth).items close)
    fun bound depth other le otherLe =>
      (settled depth other bound).items close (by omega) (by omega)

theorem converges_pairs : Converges pairs (limit pairs) :=
  converges_limit (fun depth => (shrinking depth).pairs)
    fun bound depth other le otherLe =>
      (settled depth other bound).pairs (by omega) (by omega)

theorem converges_statement : Converges statement (limit statement) :=
  converges_limit (fun depth => (shrinking depth).statement)
    fun bound depth other le otherLe =>
      (settled depth other bound).statement (by omega) (by omega)

theorem converges_block :
    Converges (fun depth => ofDraft (block depth)) (limit fun depth => ofDraft (block depth)) :=
  converges_limit (fun depth => .ofDraft (shrinking depth).block)
    fun bound depth other le otherLe =>
      .ofDraft ((settled depth other bound).block (by omega) (by omega))

/-! ## The equations of the limits -/

theorem limit_expression (floor : Level) :
    limit (expression · floor) =
      limit operand >>= fun left => limit (extend · floor left) :=
  (converges_expression floor).succ.unique
    (converges_operand.bind fun left => converges_extend floor left)

/-- An expression is extended by a token that binds tightly enough. -/
theorem limit_extend_of_lt {floor : Level} {token : Token} {follow : Follow}
    (announces : token.follow? = some follow) (lt : floor < follow.level) (left : Expr)
    (rest : List Token) :
    limit (extend · floor left) (token :: rest) =
      (limit (continued · left follow) >>= fun longer =>
        limit (extend · floor longer)) rest :=
  limit_apply_of_unfolds
    ((converges_continued left follow).bind fun longer => converges_extend floor longer)
    (Nat.le_succ _) fun depth => by simp only [extend, announces, lt, if_true]

/-- The tokens do not begin with one that binds more tightly than a level. -/
def Stops (level : Level) (tokens : List Token) : Prop :=
  ∀ token ∈ tokens.head?, ∀ follow ∈ token.follow?, ¬ level < follow.level

/-- An expression is not extended by any other token. -/
theorem limit_extend_of_stops {floor : Level} {tokens : List Token} (stops : Stops floor tokens)
    (left : Expr) : limit (extend · floor left) tokens = done left tokens := by
  refine limit_apply_of_unfolds (.const fun _ => Nat.le_refl _) (Nat.le_refl _) fun depth => ?_
  cases tokens with
  | nil => rfl
  | cons token rest =>
    cases announces : token.follow? with
    | none => simp only [extend, announces]
    | some follow =>
      have notLt : ¬ floor < follow.level := stops token rfl follow announces
      simp only [extend, announces, notLt, if_false]

theorem limit_continued_binary (left : Expr) (op : BinaryOp) :
    limit (continued · left (.binary op)) =
      limit (expression · op.level) >>= fun right => pure (.binary left op right) :=
  (converges_continued left (.binary op)).succ.unique
    ((converges_expression op.level).bind fun _ => .const (shrinks_pure _))

theorem limit_continued_call (left : Expr) :
    limit (continued · left .call) =
      limit (listing · .rightParen) >>= fun arguments => pure (.call left arguments) :=
  (converges_continued left .call).succ.unique
    ((converges_listing .rightParen).bind fun _ => .const (shrinks_pure _))

theorem limit_continued_index (left : Expr) :
    limit (continued · left .index) =
      limit (expression · .lowest) >>= fun position =>
        expect .rightBracket >>= fun _ => pure (.index left position) :=
  (converges_continued left .index).succ.unique
    ((converges_expression .lowest).bind fun _ =>
      .const ((shrinks_expect _).bind fun _ => shrinks_pure _))

theorem limit_operand_cons (token : Token) (rest : List Token) :
    limit operand (token :: rest) =
      match token with
      | .ident name => done (.ident name) rest
      | .int digits => integer digits rest
      | .string text => done (.string text) rest
      | .keyword .true => done (.bool true) rest
      | .keyword .false => done (.bool false) rest
      | .symbol .bang => (limit (expression · .unary) rest).map (.unary .not)
      | .symbol .minus => (limit (expression · .unary) rest).map (.unary .negate)
      | .symbol .leftParen => limit grouped rest
      | .keyword .cond => limit conditional rest
      | .keyword .function => limit functionLiteral rest
      | .symbol .leftBracket => (limit (listing · .rightBracket) rest).map .array
      | .symbol .leftBrace => (limit pairs rest).map .hash
      | token => fail (.noExpression token.kind) rest := by
  rcases exists_depth (token :: rest) with ⟨depth, eq, enough⟩
  have lt : rest.length < (token :: rest).length + 1 := Nat.lt_succ_of_le (Nat.le_succ _)
  rw [limit, eq, ← (converges_expression .unary).agree _ _ enough rest lt,
    ← converges_grouped.agree _ _ enough rest lt,
    ← converges_conditional.agree _ _ enough rest lt,
    ← converges_functionLiteral.agree _ _ enough rest lt,
    ← (converges_listing .rightBracket).agree _ _ enough rest lt,
    ← converges_pairs.agree _ _ enough rest lt]
  rcases token with _ | _ | _ | _ | mark | word
  case symbol => cases mark <;> rfl
  case keyword => cases word <;> rfl
  all_goals rfl

theorem limit_grouped :
    limit grouped =
      limit (expression · .lowest) >>= fun inner =>
        expect .rightParen >>= fun _ => pure inner :=
  converges_grouped.succ.unique ((converges_expression .lowest).bind fun _ =>
    .const ((shrinks_expect _).bind fun _ => shrinks_pure _))

theorem limit_conditional :
    limit conditional =
      expect .leftParen >>= fun _ => limit grouped >>= fun condition =>
        expect .leftBrace >>= fun _ => limit (fun depth => ofDraft (block depth)) >>= fun first =>
          limit otherwise >>= fun second => pure (.cond condition first second) :=
  converges_conditional.succ.unique <|
    (Converges.const (shrinks_expect _)).bind fun _ => converges_grouped.bind fun _ =>
      (Converges.const (shrinks_expect _)).bind fun _ => converges_block.bind fun _ =>
        converges_otherwise.bind fun _ => .const (shrinks_pure _)

theorem limit_otherwise_cons (rest : List Token) :
    limit otherwise (.keyword .otherwise :: rest) =
      (expect .leftBrace >>= fun _ =>
        limit (fun depth => ofDraft (block depth)) >>= fun body => pure (some body)) rest :=
  limit_apply_of_unfolds ((Converges.const (shrinks_expect .leftBrace)).bind fun _ =>
    converges_block.bind fun body => .const (shrinks_pure (some body))) (Nat.le_succ _)
    fun _ => rfl

theorem limit_otherwise_of_head?_ne {tokens : List Token}
    (ne : tokens.head? ≠ some (.keyword .otherwise)) :
    limit otherwise tokens = done none tokens := by
  refine limit_apply_of_unfolds (.const fun _ => Nat.le_refl _) (Nat.le_refl _) fun depth => ?_
  unfold otherwise
  split
  · exact absurd rfl ne
  · rfl

theorem limit_functionLiteral :
    limit functionLiteral =
      expect .leftParen >>= fun _ => parameters >>= fun names => expect .leftBrace >>= fun _ =>
        limit (fun depth => ofDraft (block depth)) >>= fun body =>
          pure (.function names body) :=
  converges_functionLiteral.succ.unique <|
    (Converges.const (shrinks_expect _)).bind fun _ =>
      (Converges.const shrinks_parameters).bind fun _ =>
        (Converges.const (shrinks_expect _)).bind fun _ =>
          converges_block.bind fun _ => .const (shrinks_pure _)

theorem limit_listing (close : Symbol) :
    limit (listing · close) =
      accept close >>= fun closed =>
        if closed then pure [] else limit (items · close) := by
  refine (converges_listing close).succ.unique
    ((Converges.const (shrinks_accept close)).bind fun closed => ?_)
  cases closed with
  | true => exact .const (shrinks_pure _)
  | false => exact converges_items close

theorem limit_items (close : Symbol) :
    limit (items · close) =
      limit (expression · .lowest) >>= fun item => accept .comma >>= fun more =>
        if more then limit (items · close) >>= fun others => pure (item :: others)
        else expect close >>= fun _ => pure [item] := by
  refine (converges_items close).succ.unique ((converges_expression .lowest).bind fun item =>
    (Converges.const (shrinks_accept .comma)).bind fun more => ?_)
  cases more with
  | true => exact (converges_items close).bind fun _ => .const (shrinks_pure _)
  | false => exact .const ((shrinks_expect close).bind fun _ => shrinks_pure _)

theorem limit_pairs :
    limit pairs =
      accept .rightBrace >>= fun closed =>
        if closed then pure []
        else
          limit (expression · .lowest) >>= fun key => expect .colon >>= fun _ =>
            limit (expression · .lowest) >>= fun value => accept .rightBrace >>= fun last =>
              if last then pure [(key, value)]
              else expect .comma >>= fun _ =>
                limit pairs >>= fun others => pure ((key, value) :: others) := by
  refine converges_pairs.succ.unique
    ((Converges.const (shrinks_accept .rightBrace)).bind fun closed => ?_)
  cases closed with
  | true => exact .const (shrinks_pure _)
  | false =>
    refine (converges_expression .lowest).bind fun key =>
      (Converges.const (shrinks_expect .colon)).bind fun _ =>
        (converges_expression .lowest).bind fun value =>
          (Converges.const (shrinks_accept .rightBrace)).bind fun last => ?_
    cases last with
    | true => exact .const (shrinks_pure _)
    | false =>
      exact (Converges.const (shrinks_expect .comma)).bind fun _ =>
        converges_pairs.bind fun _ => .const (shrinks_pure _)

/-- A statement that is built from an expression, up to its end. -/
def ending (build : Expr → Stmt) : Parser Stmt :=
  limit (expression · .lowest) >>= fun value => accept .semicolon >>= fun _ => pure (build value)

theorem converges_ending (build : Expr → Stmt) :
    Converges (fun depth => expression depth .lowest >>= fun value =>
      accept .semicolon >>= fun _ => pure (build value)) (ending build) :=
  (converges_expression .lowest).bind fun _ =>
    .const ((shrinks_accept .semicolon).bind fun _ => shrinks_pure _)

theorem limit_statement_bind (rest : List Token) :
    limit statement (.keyword .bind :: rest) =
      (identifier >>= fun name => expect .assign >>= fun _ => ending (.bind name)) rest :=
  limit_apply_of_unfolds ((Converges.const shrinks_identifier).bind fun name =>
    (Converges.const (shrinks_expect .assign)).bind fun _ => converges_ending (.bind name))
    (Nat.le_succ _) fun _ => rfl

theorem limit_statement_return (rest : List Token) :
    limit statement (.keyword .return :: rest) = ending .return rest :=
  limit_apply_of_unfolds (converges_ending .return) (Nat.le_succ _) fun _ => rfl

theorem limit_statement_of_head?_ne {tokens : List Token}
    (notBind : tokens.head? ≠ some (.keyword .bind))
    (notReturn : tokens.head? ≠ some (.keyword .return)) :
    limit statement tokens = ending .expr tokens := by
  refine limit_apply_of_unfolds (converges_ending .expr) (Nat.le_refl _) fun depth => ?_
  unfold statement
  split
  · exact absurd rfl notBind
  · exact absurd rfl notReturn
  · rfl

/-! ## Blocks and programs -/

/-- What blocks of increasing depth settle on. -/
def limitBlock (tokens : List Token) : Draft × List Token :=
  block (sufficientDepth tokens.length) tokens

theorem limit_ofDraft_block :
    limit (fun depth => ofDraft (block depth)) = ofDraft limitBlock := by
  funext tokens
  simp only [limit, ofDraft, limitBlock]

theorem limitBlock_nil : limitBlock [] = (.empty, []) := rfl

theorem limitBlock_rightBrace (rest : List Token) :
    limitBlock (.symbol .rightBrace :: rest) = (.empty, rest) := by
  rcases exists_depth (.symbol .rightBrace :: rest) with ⟨depth, eq, -⟩
  rw [limitBlock, eq]
  rfl

theorem attempt_eq_attempt {parser other : Parser Stmt} {tokens : List Token}
    (same : parser tokens = other tokens) : attempt parser tokens = attempt other tokens := by
  simp only [attempt, same]

theorem block_cons (depth : Nat) {token : Token} (ne : token ≠ .symbol .rightBrace)
    (rest : List Token) :
    block (depth + 1) (token :: rest) =
      ((attempt (statement depth) (token :: rest)).1 ++
          (block depth (attempt (statement depth) (token :: rest)).2).1,
        (block depth (attempt (statement depth) (token :: rest)).2).2) := by
  rw [block]
  · rintro ⟨⟩
  · rintro _ ⟨⟩
    exact ne rfl

/-- A block that is not over yet is its first statement, if that can be read,
and the block behind it. -/
theorem limitBlock_cons {token : Token} (ne : token ≠ .symbol .rightBrace) (rest : List Token) :
    limitBlock (token :: rest) =
      ((attempt (limit statement) (token :: rest)).1 ++
          (limitBlock (attempt (limit statement) (token :: rest)).2).1,
        (limitBlock (attempt (limit statement) (token :: rest)).2).2) := by
  rcases exists_depth (token :: rest) with ⟨depth, eq, enough⟩
  have first : attempt (statement depth) (token :: rest) =
      attempt (limit statement) (token :: rest) :=
    attempt_eq_attempt (converges_statement.agree _ _ enough _ (Nat.lt_succ_self _))
  have shorter := length_attempt_le (shrinking depth).statement (token :: rest)
  have behind : block depth (attempt (statement depth) (token :: rest)).2 =
      limitBlock (attempt (statement depth) (token :: rest)).2 :=
    (settled depth _ ((attempt (statement depth) (token :: rest)).2.length + 1)).block
      (by omega) (by unfold sufficientDepth; omega) _ (Nat.lt_succ_self _)
  rw [limitBlock, eq, block_cons depth ne, behind, first]

end Monkey.Parser

namespace Monkey.Draft

/-- A program is its first statement, if that can be read, and the program
behind it. -/
theorem ofTokens_cons_limit (token : Token) (rest : List Token) :
    ofTokens (token :: rest) =
      (Parser.attempt (Parser.limit Parser.statement) (token :: rest)).1 ++
        ofTokens (Parser.attempt (Parser.limit Parser.statement) (token :: rest)).2 := by
  rcases Parser.exists_depth (token :: rest) with ⟨depth, eq, enough⟩
  have first : Parser.attempt (Parser.statement depth) (token :: rest) =
      Parser.attempt (Parser.limit Parser.statement) (token :: rest) :=
    Parser.attempt_eq_attempt
      (Parser.converges_statement.agree _ _ enough _ (Nat.lt_succ_self _))
  rw [ofTokens_cons (Nat.le_of_eq eq), first]

end Monkey.Draft
