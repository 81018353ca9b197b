import Mathlib.Algebra.Group.Int.Defs
import Monkey.Proofs.Token.Layout
import Monkey.Syntax.Draft.Depth

/-!
# The leaves of a program

The names, integers and strings of a program are those of its tokens, in their order:
reading passes tokens over, but it makes none up, wherever it takes up again behind a
statement that could not be read. So they are all of the kind that can be read off a
source.
-/

namespace Monkey

/-! ## Leaves -/

/-- What a tree has of its tokens: a name that is used or bound, an integer or a string. -/
inductive Leaf
  | name (spelling : String)
  | int (value : Int64)
  | string (text : String)
  deriving DecidableEq

namespace Leaf

/-- Characters of names. -/
def IsNameChar (c : Char) : Prop :=
  ('a' ≤ c ∧ c ≤ 'z') ∨ ('A' ≤ c ∧ c ≤ 'Z') ∨ c = '_'

/-- The leaf is one that can be written down: a name is a word but no keyword, an integer
has no sign, and a string holds no quote. -/
def Readable : Leaf → Prop
  | .name spelling => spelling ≠ "" ∧ (∀ c ∈ spelling.toList, IsNameChar c) ∧
      spelling ∉ ["fn", "let", "true", "false", "if", "else", "return"]
  | .int value => 0 ≤ value.toInt ∧ value.toInt ≤ 2 ^ 63 - 1
  | .string text => '"' ∉ text.toList

end Leaf

mutual

/-- The leaves of an expression, at any depth, from left to right. -/
def Expr.leaves : Expr → List Leaf
  | .ident name => [.name name]
  | .int value => [.int value]
  | .bool _ => []
  | .string text => [.string text]
  | .unary _ operand => operand.leaves
  | .binary left _ right => left.leaves ++ right.leaves
  | .cond condition consequence none => condition.leaves ++ Block.leaves consequence
  | .cond condition consequence (some alternative) =>
      condition.leaves ++ Block.leaves consequence ++ Block.leaves alternative
  | .function parameters body => parameters.map .name ++ Block.leaves body
  | .call callee arguments => callee.leaves ++ Expr.listLeaves arguments
  | .array elements => Expr.listLeaves elements
  | .index left position => left.leaves ++ position.leaves
  | .hash pairs => Expr.pairLeaves pairs

/-- The leaves of a list of expressions. -/
def Expr.listLeaves : List Expr → List Leaf
  | [] => []
  | expression :: rest => expression.leaves ++ Expr.listLeaves rest

/-- The leaves of the pairs of a hash literal. -/
def Expr.pairLeaves : List (Expr × Expr) → List Leaf
  | [] => []
  | (key, value) :: rest => key.leaves ++ value.leaves ++ Expr.pairLeaves rest

/-- The leaves of a statement. -/
def Stmt.leaves : Stmt → List Leaf
  | .bind name value => .name name :: value.leaves
  | .return value => value.leaves
  | .expr value => value.leaves

/-- The leaves of a block. -/
def Block.leaves : List Stmt → List Leaf
  | [] => []
  | statement :: rest => statement.leaves ++ Block.leaves rest

end

theorem Block.leaves_append (front back : Block) :
    Block.leaves (front ++ back) = Block.leaves front ++ Block.leaves back := by
  induction front with
  | nil => rfl
  | cons statement rest inductionHypothesis =>
    rw [List.cons_append, Block.leaves, Block.leaves, inductionHypothesis, List.append_assoc]

namespace Token

/-- The leaf that a token makes in a tree. Numerals that are too great make none. -/
def leaf? : Token → Option Leaf
  | .ident name => some (.name name)
  | .int digits =>
      if Text.Decimal.read digits.toList ≤ Parser.greatestNumeral then
        some (.int (Int64.ofNat (Text.Decimal.read digits.toList)))
      else none
  | .string text => some (.string text)
  | _ => none

/-- The leaves that tokens make. -/
def leaves (tokens : List Token) : List Leaf :=
  tokens.filterMap leaf?

theorem leaves_sublist {tokens rest : List Token} (suffix : rest <:+ tokens) :
    (leaves rest).Sublist (leaves tokens) :=
  suffix.sublist.filterMap leaf?

theorem leaves_cons (token : Token) (rest : List Token) :
    leaves (token :: rest) = token.leaf?.toList ++ leaves rest := by
  cases makes : token.leaf? with
  | none => exact List.filterMap_cons_none makes
  | some leaf => exact List.filterMap_cons_some makes

/-! ## Leaves of a source -/

theorem wellFormed_of_layout {source : List Char} {tokens : List Token}
    (layout : Layout source tokens) : ∀ token ∈ tokens, token.WellFormed := by
  induction layout with
  | blanks => exact List.forall_mem_nil _
  | lexeme _ formed _ _ inductionHypothesis =>
    exact List.forall_mem_cons.mpr ⟨formed, inductionHypothesis⟩
  | unterminated _ noQuote =>
    rintro token member
    rw [List.mem_singleton.mp member]
    exact noQuote

theorem isNameChar_of_isLetter {c : Char} (letter : isLetter c = true) : Leaf.IsNameChar c := by
  simp only [Leaf.IsNameChar, Char.le_def, UInt32.le_iff_toNat_le, Char.toNat_val,
    Char.reduceToNat, ← Char.toNat_inj]
  rcases isLetter_iff_toNat.mp letter with upper | lower | underscore
  · exact .inr (.inl upper)
  · exact .inl lower
  · exact .inr (.inr underscore)

theorem readable_name {name : String} (isName : IsName name) : (Leaf.name name).Readable := by
  constructor
  · rintro rfl
    exact isName.ne_nil rfl
  constructor
  · rintro c member
    exact isNameChar_of_isLetter (isName.letters c member)
  · intro reserved
    simp only [List.mem_cons, List.not_mem_nil, or_false] at reserved
    rcases reserved with rfl | rfl | rfl | rfl | rfl | rfl | rfl <;>
      exact absurd isName.notKeyword (by decide)

theorem readable_int {value : Nat} (le : value ≤ Parser.greatestNumeral) :
    (Leaf.int (Int64.ofNat value)).Readable := by
  have lt : value < 2 ^ 63 := Nat.lt_of_le_of_lt le (by decide)
  have exact : (Int64.ofNat value).toInt = value := Int64.toInt_ofNat_of_lt lt
  rw [Leaf.Readable, exact]
  omega

theorem readable_of_leaf? {token : Token} {leaf : Leaf} (formed : token.WellFormed)
    (makes : token.leaf? = some leaf) : leaf.Readable := by
  cases token with
  | ident name =>
    cases makes
    exact readable_name formed
  | int digits =>
    simp only [leaf?] at makes
    split at makes
    · next le =>
      cases makes
      exact readable_int le
    · cases makes
  | string text =>
    cases makes
    exact formed
  | illegal | symbol | keyword => cases makes

end Token

section Parsed

variable {α β : Type}

/-- The leaves of the value, if there is one, and behind them those of the tokens that are
left. -/
def Parsed.leaves (of : α → List Leaf) (parsed : Parsed α) : List Leaf :=
  match parsed.outcome with
  | .ok value => of value ++ Token.leaves parsed.rest
  | .error _ => Token.leaves parsed.rest

theorem Parsed.leaves_map (of : β → List Leaf) (f : α → β) (parsed : Parsed α) :
    (parsed.map f).leaves of = parsed.leaves (of ∘ f) := by
  rcases parsed with ⟨diagnostics, diagnostic | value, rest⟩ <;> rfl

/-- Leaves in front of the value are lost when there is none. -/
theorem Parsed.leaves_carry_sublist (front : List Leaf) (of : α → List Leaf) (parsed : Parsed α) :
    (parsed.leaves fun value => front ++ of value).Sublist (front ++ parsed.leaves of) := by
  rcases parsed with ⟨diagnostics, diagnostic | value, rest⟩
  · exact List.sublist_append_right _ _
  · simp only [Parsed.leaves, List.append_assoc, List.Sublist.refl]

end Parsed

namespace Parser

variable {α β : Type} {parser : Parser α} {next : α → Parser β} {of : α → List Leaf}
  {ofNext : β → List Leaf} {front : List Leaf}

/-! ## Parsers that make no leaves up -/

/-- The leaves of what the parser ends with are among those in front and those of the tokens
that it was given, in order. -/
def Gathers (parser : Parser α) (of : α → List Leaf) (front : List Leaf) : Prop :=
  ∀ tokens, ((parser tokens).leaves of).Sublist (front ++ Token.leaves tokens)

theorem gathers_done (value : α) : Gathers (done value) of (of value) :=
  fun _ => List.Sublist.refl _

theorem gathers_pure (value : α) : Gathers (pure value : Parser α) of (of value) :=
  gathers_done value

theorem gathers_fail (diagnostic : Diagnostic) : Gathers (fail diagnostic : Parser α) of front :=
  fun _ => List.sublist_append_right _ _

theorem Gathers.bind (first : Gathers parser of front)
    (second : ∀ value, Gathers (next value) ofNext (of value)) :
    Gathers (parser >>= next) ofNext front := by
  intro tokens
  have firstGathers := first tokens
  rcases parsed : parser tokens with ⟨diagnostics, diagnostic | value, rest⟩
  · rw [parsed] at firstGathers
    rw [bind_apply_of_error parsed]
    exact firstGathers
  · rw [parsed] at firstGathers
    rw [bind_apply_of_ok parsed]
    exact (second value rest).trans firstGathers

/-- The leaves in front are kept along with those of the value. -/
theorem Gathers.carry_bind (first : Gathers parser of [])
    (second : ∀ value, Gathers (next value) ofNext (front ++ of value)) :
    Gathers (parser >>= next) ofNext front := by
  -- The parser around a part has leaves already, which `bind` has to find in its value.
  have carried : Gathers parser (fun value => front ++ of value) front := by
    intro tokens
    exact (Parsed.leaves_carry_sublist front of _).trans ((first tokens).append_left front)
  exact carried.bind second

/-- A parser that attempts no statement may pass over any tokens. -/
theorem Silent.gathers_bind (silent : Silent parser)
    (second : ∀ value, Gathers (next value) ofNext front) :
    Gathers (parser >>= next) ofNext front := by
  have nothing : Gathers parser (fun _ => []) [] := by
    intro tokens
    have left := Token.leaves_sublist (silent tokens).2
    unfold Parsed.leaves
    split <;> exact left
  apply nothing.carry_bind
  intro value
  rw [List.append_nil]
  exact second value

theorem gathers_identifier : Gathers identifier (fun name => [.name name]) [] := by
  intro tokens
  unfold identifier
  split
  · exact List.Sublist.refl _
  · exact gathers_fail _ _

theorem gathers_integer (digits : String) :
    Gathers (integer digits) Expr.leaves (Token.leaf? (.int digits)).toList := by
  simp only [integer]
  split
  · next le =>
    rw [Token.leaf?, if_pos le]
    exact gathers_done _
  · exact gathers_fail _

theorem gathers_moreParameters : Gathers moreParameters (List.map .name) [] := by
  intro tokens
  fun_induction moreParameters tokens with
  | case1 rest => exact gathers_done _ rest
  | case2 name rest inductionHypothesis =>
    rw [Parsed.leaves_map]
    exact (Parsed.leaves_carry_sublist [.name name] _ _).trans
      (inductionHypothesis.append_left [.name name])
  | case3 rest => exact gathers_fail _ rest
  | case4 tokens => exact gathers_fail _ tokens

theorem gathers_parameters : Gathers parameters (List.map .name) [] := by
  intro tokens
  unfold parameters
  split
  · next rest => exact gathers_done _ rest
  · exact (gathers_identifier.bind fun _ => gathers_moreParameters.carry_bind fun _ =>
      gathers_pure _) _

/-- The parsers of a depth make no leaves up. -/
structure Gathering (depth : Nat) : Prop where
  expression : ∀ floor, Gathers (expression depth floor) Expr.leaves []
  extend : ∀ floor left, Gathers (extend depth floor left) Expr.leaves left.leaves
  continued : ∀ left follow, Gathers (continued depth left follow) Expr.leaves left.leaves
  operand : Gathers (operand depth) Expr.leaves []
  grouped : Gathers (grouped depth) Expr.leaves []
  conditional : Gathers (conditional depth) Expr.leaves []
  otherwise : Gathers (otherwise depth) (fun branch => Block.leaves (branch.getD [])) []
  functionLiteral : Gathers (functionLiteral depth) Expr.leaves []
  listing : ∀ close, Gathers (listing depth close) Expr.listLeaves []
  items : ∀ close, Gathers (items depth close) Expr.listLeaves []
  pairs : Gathers (pairs depth) Expr.pairLeaves []
  statement : Gathers (statement depth) Stmt.leaves []
  block : Gathers (ofDraft (block depth)) Block.leaves []

/-- What was read by an attempt, if anything, and what is left are those of the tokens. -/
theorem Gathers.attempt {parser : Parser Stmt} (gathers : Gathers parser Stmt.leaves [])
    (tokens : List Token) :
    (Block.leaves (attempt parser tokens).1.statements ++
      Token.leaves (attempt parser tokens).2).Sublist (Token.leaves tokens) := by
  have behind := gathers tokens
  rcases parsed : parser tokens with ⟨diagnostics, diagnostic | statement, rest⟩
  · rw [parsed] at behind
    simp only [Parser.attempt, parsed]
    exact behind
  · rw [parsed] at behind
    simp only [Parser.attempt, parsed, Block.leaves, List.append_nil]
    exact behind

namespace Gathering

variable {depth : Nat}

theorem extend_succ (gathering : Gathering depth) (floor : Level) (left : Expr) :
    Gathers (Parser.extend (depth + 1) floor left) Expr.leaves left.leaves := by
  intro tokens
  cases tokens with
  | nil => exact List.Sublist.refl _
  | cons token rest =>
    simp only [Parser.extend]
    split
    · exact List.Sublist.refl _
    · split
      -- A token that an expression goes on with may be passed over, since it makes no leaf.
      · have behind := Token.leaves_sublist (List.suffix_cons token rest)
        exact ((gathering.continued left _).bind (gathering.extend floor) rest).trans
          (behind.append_left _)
      · exact List.Sublist.refl _

theorem continued_succ (gathering : Gathering depth) (left : Expr) (follow : Follow) :
    Gathers (Parser.continued (depth + 1) left follow) Expr.leaves left.leaves := by
  cases follow with
  | binary op =>
    exact (gathering.expression op.level).carry_bind fun _ => gathers_pure _
  | call =>
    exact (gathering.listing _).carry_bind fun _ => gathers_pure _
  | index =>
    exact (gathering.expression _).carry_bind fun _ => (silent_expect _).gathers_bind fun _ =>
      gathers_pure _

theorem operand_succ (gathering : Gathering depth) :
    Gathers (Parser.operand (depth + 1)) Expr.leaves [] := by
  intro tokens
  simp only [Parser.operand]
  split
  case h_1 name rest => exact gathers_done (Expr.ident name) rest
  case h_2 digits rest =>
    rw [List.nil_append, Token.leaves_cons]
    exact gathers_integer digits rest
  case h_3 text rest => exact gathers_done (Expr.string text) rest
  case h_4 rest => exact gathers_done (Expr.bool true) rest
  case h_5 rest => exact gathers_done (Expr.bool false) rest
  case h_6 rest =>
    rw [Parsed.leaves_map]
    exact gathering.expression _ rest
  case h_7 rest =>
    rw [Parsed.leaves_map]
    exact gathering.expression _ rest
  case h_8 rest => exact gathering.grouped rest
  case h_9 rest => exact gathering.conditional rest
  case h_10 rest => exact gathering.functionLiteral rest
  case h_11 rest =>
    rw [Parsed.leaves_map]
    exact gathering.listing _ rest
  case h_12 rest =>
    rw [Parsed.leaves_map]
    exact gathering.pairs rest
  case h_13 => exact Token.leaves_sublist (List.suffix_cons _ _)
  case h_14 => exact List.Sublist.refl _

theorem grouped_succ (gathering : Gathering depth) :
    Gathers (Parser.grouped (depth + 1)) Expr.leaves [] :=
  (gathering.expression _).bind fun _ => (silent_expect _).gathers_bind fun _ => gathers_pure _

theorem conditional_succ (gathering : Gathering depth) :
    Gathers (Parser.conditional (depth + 1)) Expr.leaves [] := by
  apply (silent_expect _).gathers_bind
  intro _
  apply gathering.grouped.bind
  intro condition
  apply (silent_expect _).gathers_bind
  intro _
  apply gathering.block.carry_bind
  intro consequence
  apply gathering.otherwise.carry_bind
  intro alternative
  have same : condition.leaves ++ Block.leaves consequence ++ Block.leaves (alternative.getD []) =
      (Expr.cond condition consequence alternative).leaves := by
    cases alternative with
    | none => exact List.append_nil _
    | some block => rfl
  rw [same]
  exact gathers_pure _

theorem otherwise_succ (gathering : Gathering depth) :
    Gathers (Parser.otherwise (depth + 1)) (fun branch => Block.leaves (branch.getD [])) [] := by
  intro tokens
  simp only [Parser.otherwise]
  split
  · next rest =>
    have braced : Gathers (do
        expect .leftBrace
        return some (← ofDraft (Parser.block depth)))
        (fun branch => Block.leaves (branch.getD [])) [] :=
      (silent_expect _).gathers_bind fun _ => gathering.block.bind fun _ => gathers_pure _
    exact braced rest
  · exact gathers_done _ _

theorem functionLiteral_succ (gathering : Gathering depth) :
    Gathers (Parser.functionLiteral (depth + 1)) Expr.leaves [] :=
  (silent_expect _).gathers_bind fun _ => gathers_parameters.bind fun _ =>
    (silent_expect _).gathers_bind fun _ => gathering.block.carry_bind fun _ =>
      gathers_pure _

theorem listing_succ (gathering : Gathering depth) (close : Symbol) :
    Gathers (Parser.listing (depth + 1) close) Expr.listLeaves [] := by
  apply (silent_accept _).gathers_bind
  intro accepted
  split
  · exact gathers_pure _
  · exact gathering.items close

theorem items_succ (gathering : Gathering depth) (close : Symbol) :
    Gathers (Parser.items (depth + 1) close) Expr.listLeaves [] := by
  apply (gathering.expression _).bind
  intro item
  apply (silent_accept _).gathers_bind
  intro accepted
  split
  · exact (gathering.items close).carry_bind fun _ => gathers_pure _
  · apply (silent_expect _).gathers_bind
    intro _
    have only : Expr.listLeaves [item] = item.leaves := List.append_nil _
    rw [← only]
    exact gathers_pure _

theorem pairs_succ (gathering : Gathering depth) :
    Gathers (Parser.pairs (depth + 1)) Expr.pairLeaves [] := by
  apply (silent_accept _).gathers_bind
  intro accepted
  split
  · exact gathers_pure _
  apply (gathering.expression _).bind
  intro key
  apply (silent_expect _).gathers_bind
  intro _
  apply (gathering.expression _).carry_bind
  intro value
  apply (silent_accept _).gathers_bind
  intro closed
  split
  · have only : Expr.pairLeaves [(key, value)] = key.leaves ++ value.leaves :=
      List.append_nil _
    rw [← only]
    exact gathers_pure _
  · exact (silent_expect _).gathers_bind fun _ => gathering.pairs.carry_bind fun _ =>
      gathers_pure _

/-- An expression and a semicolon, which may be missing. -/
theorem ending (gathering : Gathering depth) {build : Expr → Stmt}
    (same : ∀ value, (build value).leaves = front ++ value.leaves) :
    Gathers (do
      let value ← Parser.expression depth .lowest
      let _ ← accept .semicolon
      return build value) Stmt.leaves front :=
  (gathering.expression _).carry_bind fun value => (silent_accept _).gathers_bind fun _ =>
    same value ▸ gathers_pure _

theorem statement_succ (gathering : Gathering depth) :
    Gathers (Parser.statement (depth + 1)) Stmt.leaves [] := by
  intro tokens
  simp only [Parser.statement]
  split
  · exact (gathers_identifier.bind fun _ => (silent_expect _).gathers_bind fun _ =>
      gathering.ending fun _ => rfl) _
  · exact gathering.ending (fun _ => rfl) _
  · exact gathering.ending (fun _ => rfl) _

theorem block_succ (gathering : Gathering depth) :
    Gathers (ofDraft (Parser.block (depth + 1))) Block.leaves [] := by
  intro tokens
  simp only [ofDraft, Parser.block]
  split
  · exact List.Sublist.refl _
  · exact Token.leaves_sublist (List.suffix_cons _ _)
  · have first := gathering.statement.attempt tokens
    have others := gathering.block (Parser.attempt (Parser.statement depth) tokens).2
    simp only [Parsed.leaves, Draft.statements_append, Block.leaves_append, List.append_assoc]
    exact (others.append_left _).trans first

end Gathering

/-- Parsers of any depth make no leaves up. -/
theorem gathering (depth : Nat) : Gathering depth := by
  induction depth with
  | zero =>
    exact {
      expression := fun _ tokens => gathers_fail _ tokens
      extend := fun _ left => gathers_done left
      continued := fun left _ => gathers_done left
      operand := fun tokens => gathers_fail _ tokens
      grouped := fun tokens => gathers_fail _ tokens
      conditional := fun tokens => gathers_fail _ tokens
      otherwise := gathers_done none
      functionLiteral := fun tokens => gathers_fail _ tokens
      listing := fun _ => gathers_done []
      items := fun _ => gathers_done []
      pairs := gathers_done []
      statement := fun tokens => gathers_fail _ tokens
      block := fun tokens => List.Sublist.refl _ }
  | succ depth inductionHypothesis =>
    exact {
      expression := fun floor =>
        inductionHypothesis.operand.bind fun left => inductionHypothesis.extend floor left
      extend := inductionHypothesis.extend_succ
      continued := inductionHypothesis.continued_succ
      operand := inductionHypothesis.operand_succ
      grouped := inductionHypothesis.grouped_succ
      conditional := inductionHypothesis.conditional_succ
      otherwise := inductionHypothesis.otherwise_succ
      functionLiteral := inductionHypothesis.functionLiteral_succ
      listing := inductionHypothesis.listing_succ
      items := inductionHypothesis.items_succ
      pairs := inductionHypothesis.pairs_succ
      statement := inductionHypothesis.statement_succ
      block := inductionHypothesis.block_succ }

theorem leaves_program_sublist (depth : Nat) (tokens : List Token) :
    (Block.leaves (program depth tokens).statements).Sublist (Token.leaves tokens) := by
  induction depth generalizing tokens with
  | zero => exact List.nil_sublist _
  | succ depth inductionHypothesis =>
    cases tokens with
    | nil => exact List.nil_sublist _
    | cons token rest =>
      have first := (gathering depth).statement.attempt (token :: rest)
      have others := inductionHypothesis (attempt (statement depth) (token :: rest)).2
      rw [program_cons, Draft.statements_append, Block.leaves_append]
      exact (others.append_left _).trans first

end Parser

namespace Draft

/-- The leaves of a program are those of its tokens, in order, save for the tokens of what
could not be read. -/
theorem leaves_ofTokens_sublist (tokens : List Token) :
    (Block.leaves (ofTokens tokens).statements).Sublist (Token.leaves tokens) :=
  Parser.leaves_program_sublist _ tokens

/-- Whatever the source, all leaves of what is read are such as can be written down. -/
theorem readable_of_mem_leaves_ofSource (source : String) :
    ∀ leaf ∈ Block.leaves (ofSource source).statements, leaf.Readable := by
  rintro leaf member
  have among := (leaves_ofTokens_sublist (Token.ofSource source)).subset member
  rcases List.mem_filterMap.mp among with ⟨token, there, makes⟩
  have formed := Token.wellFormed_of_layout (Token.layout_ofChars source.toList) token there
  exact Token.readable_of_leaf? formed makes

/-- A statement that cannot be read in a function, and another one behind it. -/
def interrupted : String := "let twice = fn(x_) \x7b let 5 + y; [x_, \"a b\"] \x7d; if (z"

theorem readable_of_mem_leaves_interrupted :
    (ofSource interrupted).diagnostics ≠ [] ∧
      Block.leaves (ofSource interrupted).statements =
        [.name "twice", .name "x_", .int 5, .name "y", .name "x_", .string "a b"] ∧
      ∀ leaf ∈ [Leaf.name "twice", .name "x_", .int 5, .name "y", .name "x_", .string "a b"],
        leaf.Readable := by
  have damaged : (ofSource interrupted).diagnostics ≠ [] := by decide +kernel
  have read : Block.leaves (ofSource interrupted).statements =
      [.name "twice", .name "x_", .int 5, .name "y", .name "x_", .string "a b"] := by
    decide +kernel
  constructor
  · exact damaged
  constructor
  · exact read
  · rw [← read]
    exact readable_of_mem_leaves_ofSource interrupted

end Draft

end Monkey
