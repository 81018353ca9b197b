import Monkey.Proofs.Grammar.Soundness
import Monkey.Proofs.Token.Layout

/-!
# Sources behind each other

A source that ends with a semicolon, and leaves no block open, may be followed by
any other source, also by one that cannot be read: both are read together as they
are read alone. What is read of a phrase depends on the tokens behind it in no
other way than on whether there are any, and on the first of them. Only a block
that is left open lets the end of the input stand inside a phrase.
-/

namespace Monkey.Grammar

/-! ## Phrases in front of more tokens -/

/-- A phrase reaches over the tokens from the input to the rest, and closes no more
braces than it opens. If anything is left, it is a phrase also in front of more
tokens. -/
structure Spans (phrase : List Token → List Token → Prop) (input rest : List Token) :
    Prop where
  suffix : rest <:+ input
  braces : input.count (.symbol .rightBrace) + rest.count (.symbol .leftBrace) ≤
    input.count (.symbol .leftBrace) + rest.count (.symbol .rightBrace)
  extended : rest ≠ [] → ∀ more, phrase (input ++ more) (rest ++ more)

namespace Spans

variable {phrase other : List Token → List Token → Prop} {input middle rest : List Token}
  {token : Token}

/-- A single token. -/
theorem takes (token : Token) (plain : token ≠ .symbol .rightBrace := by simp) :
    Spans (fun input rest => input = token :: rest) (token :: rest) rest where
  suffix := List.suffix_cons token rest
  braces := by
    simp only [List.count_cons, beq_iff_eq, plain, if_false]
    omega
  extended _ _ := rfl

/-- The symbol of an operator. -/
theorem mark {op : BinaryOp} :
    Spans (fun input rest => input = .symbol op.mark :: rest) (.symbol op.mark :: rest) rest :=
  takes _ (by cases op <;> decide)

/-- One phrase behind another. -/
theorem seq (first : Spans phrase input middle) (second : Spans other middle rest) :
    Spans (fun input rest => ∃ middle, phrase input middle ∧ other middle rest) input rest where
  suffix := second.suffix.trans first.suffix
  braces := by
    have front := first.braces
    have back := second.braces
    omega
  extended ne_nil more := by
    have middle_ne_nil : middle ≠ [] := by
      rintro rfl
      exact ne_nil (List.suffix_nil.mp second.suffix)
    exact ⟨_, first.extended middle_ne_nil more, second.extended ne_nil more⟩

theorem imp (spans : Spans phrase input rest)
    (step : ∀ input rest, phrase input rest → other input rest) : Spans other input rest where
  suffix := spans.suffix
  braces := spans.braces
  extended ne_nil more := step _ _ (spans.extended ne_nil more)

/-- What does not come next does not come next in front of more tokens. -/
theorem unfollowed {marks : List Symbol} (spans : Spans phrase input rest)
    (none : NoneNext marks rest) :
    Spans (fun input rest => phrase input rest ∧ NoneNext marks rest) input rest where
  suffix := spans.suffix
  braces := spans.braces
  extended ne_nil more := by
    refine ⟨spans.extended ne_nil more, ?_⟩
    cases rest with
    | nil => exact absurd rfl ne_nil
    | cons => exact none

/-- The token behind a phrase stays there. -/
theorem followed (spans : Spans phrase input (token :: rest)) :
    Spans (fun input rest => ∃ behind, rest = token :: behind ∧ phrase input (token :: behind))
      input (token :: rest) where
  suffix := spans.suffix
  braces := spans.braces
  extended ne_nil more := ⟨rest ++ more, rfl, spans.extended ne_nil more⟩

/-- A phrase between braces. -/
theorem braced (inside : Spans phrase input (.symbol .rightBrace :: rest)) :
    Spans (fun input rest => ∃ middle, input = .symbol .leftBrace :: middle ∧
        phrase middle (.symbol .rightBrace :: rest))
      (.symbol .leftBrace :: input) rest where
  suffix := ((List.suffix_cons _ rest).trans inside.suffix).trans (List.suffix_cons _ input)
  braces := by
    have braces := inside.braces
    simp only [List.count_cons_self, ne_eq, Token.symbol.injEq, reduceCtorEq, not_false_eq_true,
      List.count_cons_of_ne] at braces ⊢
    omega
  extended _ more := ⟨_, rfl, inside.extended (List.cons_ne_nil _ _) more⟩

end Spans

open Spans (takes)

theorem Terminator.spans {input rest : List Token} (terminator : Terminator input rest) :
    Spans Terminator input rest := by
  cases terminator with
  | semicolon => exact (takes _).imp fun | _, _, rfl => .semicolon
  | omitted unfollowed =>
    have here : Spans (fun input rest => input = rest) input input :=
      ⟨List.suffix_refl _, Nat.le_of_eq (Nat.add_comm _ _), fun _ _ => rfl⟩
    exact (here.unfollowed unfollowed).imp fun | _, _, ⟨rfl, clear⟩ => .omitted clear

theorem Names.spans {input rest : List Token} {names : List String}
    (derived : Names input names rest) : Spans (Names · names ·) input rest := by
  induction derived with
  | last => exact ((takes _).seq (.takes _)).imp fun | _, _, ⟨_, rfl, rfl⟩ => .last
  | more _ inductionHypothesis =>
    exact ((takes _).seq ((takes _).seq inductionHypothesis)).imp
      fun | _, _, ⟨_, rfl, _, rfl, others⟩ => .more others

theorem Parameters.spans {input rest : List Token} {names : List String} :
    Parameters input names rest → Spans (Parameters · names ·) input rest
  | .empty => (takes _).imp fun | _, _, rfl => .empty
  | .names names => names.spans.imp fun _ _ names => .names names

mutual

theorem Expression.spans {layer : Layer} {input rest : List Token} {value : Expr} :
    Expression layer input value rest → Spans (Expression layer · value ·) input rest
  | .operand operand => operand.spans.imp fun _ _ operand => .operand operand
  | .binary member left right =>
      (left.spans.seq (Spans.mark.seq right.spans)).imp
        fun | _, _, ⟨_, left, _, rfl, right⟩ => .binary member left right
  | @Expression.unary op _ _ _ operand =>
      ((takes _ (by cases op <;> simp [UnaryOp.mark])).seq operand.spans).imp
        fun | _, _, ⟨_, rfl, operand⟩ => .unary operand
  | .chain chain longest =>
      (chain.spans.unfollowed longest).imp fun _ _ ⟨chain, longest⟩ => .chain chain longest

theorem Chain.spans {input rest : List Token} {value : Expr} :
    Chain input value rest → Spans (Chain · value ·) input rest
  | .primary primary => primary.spans.imp fun _ _ primary => .primary primary
  | .call function listing =>
      (function.spans.seq ((takes _).seq (listing.spans.seq (.takes _)))).imp
        fun | _, _, ⟨_, function, _, rfl, _, ⟨_, rfl, listing⟩, eq⟩ => by
              cases eq
              exact .call function listing
  | .index indexed index =>
      (indexed.spans.seq ((takes _).seq (index.spans.seq (.takes _)))).imp
        fun | _, _, ⟨_, indexed, _, rfl, _, index, rfl⟩ => .index indexed index

theorem Primary.spans {input rest : List Token} {value : Expr} :
    Primary input value rest → Spans (Primary · value ·) input rest
  | .ident => (takes _).imp fun | _, _, rfl => .ident
  | .int bounded => (takes _).imp fun | _, _, rfl => .int bounded
  | .string => (takes _).imp fun | _, _, rfl => .string
  | .true => (takes _).imp fun | _, _, rfl => .true
  | .false => (takes _).imp fun | _, _, rfl => .false
  | .group inner =>
      ((takes _).seq (inner.spans.seq (.takes _))).imp
        fun | _, _, ⟨_, rfl, _, inner, rfl⟩ => .group inner
  | .cond test first =>
      ((takes _).seq ((takes _).seq (test.spans.seq ((takes _).seq first.spans)))).imp
        fun | _, _, ⟨_, rfl, _, rfl, _, test, _, rfl, first⟩ => .cond test first
  | .otherwise test first second =>
      ((takes _).seq ((takes _).seq (test.spans.seq ((takes _).seq
        (first.spans.seq ((takes _).seq second.spans)))))).imp
        fun
          | _, _, ⟨_, rfl, _, rfl, _, test, _, rfl, _, first, _, rfl, second⟩ =>
            .otherwise test first second
  | .function parameters block =>
      ((takes _).seq ((takes _).seq (parameters.spans.seq block.spans))).imp
        fun | _, _, ⟨_, rfl, _, rfl, _, parameters, block⟩ => .function parameters block
  | .array listing =>
      ((takes _).seq (listing.spans.seq (.takes _))).imp
        fun | _, _, ⟨_, rfl, _, ⟨_, rfl, listing⟩, eq⟩ => by
              cases eq
              exact .array listing
  | .hash pairs =>
      pairs.spans.braced.imp
        fun | _, _, ⟨_, rfl, _, eq, pairs⟩ => by
              cases eq
              exact .hash pairs

/-- A listing up to its closing symbol. -/
theorem Listing.spans {close : Symbol} {input rest : List Token} {values : List Expr} :
    Listing close input values rest →
      Spans (fun input rest => ∃ behind, rest = .symbol close :: behind ∧
        Listing close input values behind) input (.symbol close :: rest)
  | .empty =>
      ⟨List.suffix_refl _, Nat.le_of_eq (Nat.add_comm _ _), fun _ _ => ⟨_, rfl, .empty⟩⟩
  | .items items => items.spans.imp fun _ _ ⟨behind, eq, items⟩ => ⟨behind, eq, .items items⟩

theorem Items.spans {close : Symbol} {input rest : List Token} {values : List Expr} :
    Items close input values rest →
      Spans (fun input rest => ∃ behind, rest = .symbol close :: behind ∧
        Items close input values behind) input (.symbol close :: rest)
  | .last item => item.spans.followed.imp fun _ _ ⟨behind, eq, item⟩ => ⟨behind, eq, .last item⟩
  | .more item others =>
      (item.spans.seq ((takes _).seq others.spans)).imp
        fun | _, _, ⟨_, item, _, rfl, behind, eq, others⟩ => ⟨behind, eq, .more item others⟩

/-- The pairs of a hash up to their closing brace. -/
theorem Pairs.spans {input rest : List Token} {entries : List (Expr × Expr)} :
    Pairs input entries rest →
      Spans (fun input rest => ∃ behind, rest = .symbol .rightBrace :: behind ∧
        Pairs input entries behind) input (.symbol .rightBrace :: rest)
  | .empty =>
      ⟨List.suffix_refl _, Nat.le_of_eq (Nat.add_comm _ _), fun _ _ => ⟨_, rfl, .empty⟩⟩
  | .last left right =>
      (left.spans.seq ((takes _).seq right.spans.followed)).imp
        fun | _, _, ⟨_, left, _, rfl, behind, eq, right⟩ => ⟨behind, eq, .last left right⟩
  | .more left right others =>
      (left.spans.seq ((takes _).seq (right.spans.seq ((takes _).seq others.spans)))).imp
        fun
          | _, _, ⟨_, left, _, rfl, _, right, _, rfl, behind, eq, others⟩ =>
            ⟨behind, eq, .more left right others⟩

theorem Block.spans {input rest : List Token} {body : List Stmt} :
    Block input body rest → Spans (Block · body ·) input rest
  | .closed statements =>
      statements.spans.braced.imp fun | _, _, ⟨_, rfl, statements⟩ => .closed statements
  | .unclosed statements => by
      have braces := statements.spans.braces
      refine ⟨List.nil_suffix, ?_, fun ne_nil => absurd rfl ne_nil⟩
      simp at braces ⊢
      omega

theorem Statement.spans {input rest : List Token} {first : Stmt} :
    Statement input first rest → Spans (Statement · first ·) input rest
  | .bind expression terminator =>
      ((takes _).seq ((takes _).seq ((takes _).seq
        (expression.spans.seq terminator.spans)))).imp
        fun
          | _, _, ⟨_, rfl, _, rfl, _, rfl, _, value, terminator⟩ => .bind value terminator
  | .return expression terminator =>
      ((takes _).seq (expression.spans.seq terminator.spans)).imp
        fun | _, _, ⟨_, rfl, _, value, terminator⟩ => .return value terminator
  | .expr expression terminator =>
      (expression.spans.seq terminator.spans).imp
        fun | _, _, ⟨_, value, terminator⟩ => .expr value terminator

theorem Statements.spans {input rest : List Token} {program : List Stmt} :
    Statements input program rest → Spans (Statements · program ·) input rest
  | .nil => ⟨List.suffix_refl _, Nat.le_of_eq (Nat.add_comm _ _), fun _ _ => .nil⟩
  | .cons statement following =>
      (statement.spans.seq following.spans).imp
        fun | _, _, ⟨_, first, others⟩ => .cons first others

end

/-! ## Semicolons inside phrases -/

/-- A phrase that reaches to the end of the input ends with something else than a
semicolon, or leaves a brace open. -/
def Unterminated (input rest : List Token) : Prop :=
  rest = [] → (∃ token ∈ input.getLast?, token ≠ .symbol .semicolon) ∨
    input.count (.symbol .rightBrace) < input.count (.symbol .leftBrace)

namespace Unterminated

variable {input middle rest : List Token}

theorem of_suffix {token : Token} (suffix : token :: rest <:+ input)
    (ne : token ≠ .symbol .semicolon) : Unterminated input rest := by
  rintro rfl
  rcases suffix with ⟨front, rfl⟩
  exact .inl ⟨token, List.getLast?_concat, ne⟩

/-- Nothing changes if more is closed or opened in front. -/
theorem behind {phrase : List Token → List Token → Prop} (front : Spans phrase input middle)
    (back : Unterminated middle rest) : Unterminated input rest := by
  intro ends
  rcases back ends with ⟨token, last, ne⟩ | opened
  · rcases front.suffix with ⟨before, rfl⟩
    refine .inl ⟨token, ?_, ne⟩
    rw [List.getLast?_append, Option.mem_def.mp last]
    rfl
  · have braces := front.braces
    exact .inr (by omega)

end Unterminated

mutual

theorem Expression.unterminated {layer : Layer} {input rest : List Token} {value : Expr} :
    Expression layer input value rest → Unterminated input rest
  | .operand operand => operand.unterminated
  | .binary _ left right => right.unterminated.behind (left.spans.seq .mark)
  | @Expression.unary op _ _ _ operand =>
      operand.unterminated.behind (takes _ (by cases op <;> simp [UnaryOp.mark]))
  | .chain chain _ => chain.unterminated

theorem Chain.unterminated {input rest : List Token} {value : Expr} :
    Chain input value rest → Unterminated input rest
  | .primary primary => primary.unterminated
  | .call function listing =>
      .behind (function.spans.seq (takes _)) (.of_suffix listing.spans.suffix (by simp))
  | .index indexed index =>
      .behind (indexed.spans.seq (takes _)) (.of_suffix index.spans.suffix (by simp))

theorem Primary.unterminated {input rest : List Token} {value : Expr} :
    Primary input value rest → Unterminated input rest
  | .ident | .int _ | .string | .true | .false => .of_suffix (List.suffix_refl _) (by simp)
  | .group inner => .behind (takes _) (.of_suffix inner.spans.suffix (by simp))
  | .cond test first =>
      first.unterminated.behind
        ((takes _).seq ((takes _).seq (test.spans.seq (takes _))))
  | .otherwise test first second =>
      second.unterminated.behind
        ((takes _).seq ((takes _).seq (test.spans.seq ((takes _).seq
          (first.spans.seq (takes _))))))
  | .function parameters block =>
      block.unterminated.behind ((takes _).seq ((takes _).seq parameters.spans))
  | .array listing => .behind (takes _) (.of_suffix listing.spans.suffix (by simp))
  | .hash pairs =>
      .of_suffix (pairs.spans.suffix.trans (List.suffix_cons _ _)) (by simp)

theorem Block.unterminated {input rest : List Token} {body : List Stmt} :
    Block input body rest → Unterminated input rest
  | .closed statements =>
      .of_suffix (statements.spans.suffix.trans (List.suffix_cons _ _)) (by simp)
  | .unclosed statements => fun _ => by
      have braces := statements.spans.braces
      refine .inr ?_
      simp at braces ⊢
      omega

end

/-! ## Statements behind each other -/

/-- The input ends with a semicolon, and opens no more braces than it closes. -/
structure Finished (input : List Token) : Prop where
  last : input.getLast? = some (.symbol .semicolon)
  closed : input.count (.symbol .leftBrace) ≤ input.count (.symbol .rightBrace)

section Statements

open Monkey.Parser

variable {input middle rest : List Token}

theorem Finished.not_unterminated (finished : Finished input) : ¬ Unterminated input [] := by
  intro unterminated
  rcases unterminated rfl with ⟨token, last, ne⟩ | opened
  · rw [finished.last] at last
    exact ne (Option.some.inj last).symm
  · exact absurd finished.closed (Nat.not_le_of_lt opened)

/-- What is behind the first of the phrases of a finished input is finished. -/
theorem Finished.behind {phrase other : List Token → List Token → Prop}
    (finished : Finished input) (front : Spans phrase input middle)
    (back : Spans other middle []) (ne_nil : middle ≠ []) : Finished middle where
  last := by
    rcases front.suffix with ⟨before, rfl⟩
    rw [← finished.last, List.getLast?_append, List.getLast?_eq_some_getLast ne_nil]
    rfl
  closed := by
    have closed := finished.closed
    have frontBraces := front.braces
    have backBraces := back.braces
    simp only [List.count_nil] at backBraces
    omega

/-- The semicolon of a finished input ends its last statement. -/
theorem Terminator.eq_semicolon (terminator : Terminator middle []) (finished : Finished input)
    (unterminated : Unterminated input middle) : middle = [.symbol .semicolon] := by
  cases terminator with
  | semicolon => rfl
  | omitted => exact absurd unterminated finished.not_unterminated

/-- Behind a semicolon anything may stand. -/
theorem Expression.reads_ending_append {build : Expr → Stmt} {value : Expr}
    (expression : Expression .equality input value [.symbol .semicolon]) (more : List Token) :
    Reads (ending build) (input ++ more) (build value) more := by
  have extended := expression.spans.extended (List.cons_ne_nil _ _) more
  exact reads_ending_iff.mpr
    ⟨value, _, reads_of_passes rfl fun ends => extended.passes ends (by decide), .inr rfl, rfl⟩

theorem Statement.reads_append {first : Stmt} (statement : Statement input first [])
    (finished : Finished input) (more : List Token) :
    Reads (limit Parser.statement) (input ++ more) first more := by
  cases statement with
  | bind expression terminator =>
    obtain rfl := terminator.eq_semicolon finished
      (expression.unterminated.behind ((takes _).seq ((takes _).seq (takes _))))
    exact reads_statement_bind_iff.mpr ⟨_, _, rfl, expression.reads_ending_append more⟩
  | «return» expression terminator =>
    obtain rfl := terminator.eq_semicolon finished (expression.unterminated.behind (takes _))
    exact reads_statement_return_iff.mpr (expression.reads_ending_append more)
  | expr expression terminator =>
    obtain rfl := terminator.eq_semicolon finished expression.unterminated
    exact reads_statement_of_reads_ending (expression.reads_ending_append more)

/-- The statements of a finished input are read in front of any tokens. -/
theorem Statements.ofTokens_append {program : Program} (derived : Statements input program [])
    (finished : Finished input) (more : List Token) :
    Draft.ofTokens (input ++ more) = ⟨program, []⟩ ++ Draft.ofTokens more := by
  induction program generalizing input with
  | nil =>
    cases derived
    cases finished.last
  | cons statement program inductionHypothesis =>
    rcases derived with _ | @⟨_, middle, _, _, _, first, following⟩
    have later := ofTokens_of_statements following
    by_cases ends : middle = []
    · subst ends
      rw [Draft.ofTokens_of_reads (first.reads_append finished more)]
      rw [Draft.ofTokens_nil] at later
      cases later
      rfl
    · have extended := first.spans.extended ends more
      have notOtherwise : (middle ++ more).head? ≠ some (.keyword .otherwise) := by
        rw [List.head?_append, Option.or_of_isSome (List.isSome_head?.mpr ends)]
        exact head?_ne_otherwise_of_ofTokens later
      rw [Draft.ofTokens_of_reads (extended.reads notOtherwise), inductionHypothesis following
        (finished.behind first.spans following.spans ends)]
      rfl

end Statements

end Monkey.Grammar

namespace Monkey

open Grammar

/-- A source that is read without a diagnostic, ends with a semicolon and has as
many opening as closing braces is read in front of any other source as it is
alone, and so is the other source behind it. -/
theorem Draft.ofSource_append {first : String} (clean : (Draft.ofSource first).diagnostics = [])
    (last : (Token.ofSource first).getLast? = some (.symbol .semicolon))
    (balanced : (Token.ofSource first).count (.symbol .leftBrace) =
      (Token.ofSource first).count (.symbol .rightBrace)) (second : String) :
    Draft.ofSource (first ++ second) =
      ⟨(Draft.ofSource first).statements ++ (Draft.ofSource second).statements,
        (Draft.ofSource second).diagnostics⟩ := by
  have read : Draft.ofTokens (Token.ofSource first) = ⟨(Draft.ofSource first).statements, []⟩ :=
    congrArg (Draft.mk _) clean
  have derived := ofTokens_eq_iff_sentence.mp read
  have tokens := Token.ofSource_append_of_getLast? last (by decide) second
  rw [Draft.ofSource, tokens, derived.ofTokens_append ⟨last, Nat.le_of_eq balanced⟩]
  rfl

/-- A hash with a comma behind its last pair, in two blocks. -/
def Draft.closedBlocks : String :=
  "let f = fn(x) \x7b if (x) \x7b \x7b1: x,\x7d \x7d \x7d; "

/-- Nothing that could go on behind the other source, and two statements that
cannot be read. -/
def Draft.damaged : String := "else f(2); (1 + let x 5"

theorem Draft.ofSource_append_of_closedBlocks :
    (Draft.ofSource closedBlocks).diagnostics = [] ∧
      (Token.ofSource closedBlocks).getLast? = some (.symbol .semicolon) ∧
      (Token.ofSource closedBlocks).count (.symbol .leftBrace) =
        (Token.ofSource closedBlocks).count (.symbol .rightBrace) ∧
      (Draft.ofSource damaged).diagnostics ≠ [] ∧
      Draft.ofSource (closedBlocks ++ damaged) =
        ⟨(Draft.ofSource closedBlocks).statements ++ (Draft.ofSource damaged).statements,
          (Draft.ofSource damaged).diagnostics⟩ := by
  have clean : (Draft.ofSource closedBlocks).diagnostics = [] := by decide +kernel
  have last : (Token.ofSource closedBlocks).getLast? = some (.symbol .semicolon) := by
    decide +kernel
  have balanced : (Token.ofSource closedBlocks).count (.symbol .leftBrace) =
      (Token.ofSource closedBlocks).count (.symbol .rightBrace) := by decide +kernel
  have malformed : (Draft.ofSource damaged).diagnostics ≠ [] := by decide +kernel
  exact ⟨clean, last, balanced, malformed, Draft.ofSource_append clean last balanced damaged⟩

end Monkey
