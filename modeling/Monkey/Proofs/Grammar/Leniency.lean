import Monkey.Proofs.Grammar.Outline
import Monkey.Proofs.Grammar.Soundness

/-!
# What is read, in outline

The parsers are more generous than the outline of the grammar in two respects:
a block may be closed by the end of the input, and a comma may stand behind the
last pair of a hash. They are so in no other respect. A source that is read
without a diagnostic, and that has no comma in front of a closing brace, lacks
nothing but the closing braces of blocks.
-/

namespace Monkey.Grammar.Outline

/-! ## Sentences in outline -/

/-- Closing braces. -/
def closing (missing : Nat) : List Token :=
  List.replicate missing (.symbol .rightBrace)

/-- A phrase of the grammar is one of the outline as well, provided that no
comma in it stands in front of a closing brace: in the lenient grammar as it is,
and in the strict one when the closing braces that it lacks are added. Braces
can only be lacking where the input ends, so they are added behind all of it. -/
structure Completes (phrase : Bool → List Token → List Token → Prop)
    (input rest : List Token) : Prop where
  suffix : rest <:+ input
  opened : ¬ danglingComma <:+: input → phrase true input rest
  closed : ¬ danglingComma <:+: input → ∀ behind, ∃ missing,
    phrase false (input ++ closing missing) (rest ++ closing behind)

namespace Completes

variable {phrase other : Bool → List Token → List Token → Prop} {input middle rest : List Token}

/-- A single token. -/
theorem takes (token : Token) :
    Completes (fun _ input rest => input = token :: rest) (token :: rest) rest where
  suffix := List.suffix_cons token rest
  opened _ := rfl
  closed _ behind := ⟨behind, rfl⟩

/-- One phrase behind another. -/
theorem seq (first : Completes phrase input middle) (second : Completes other middle rest) :
    Completes (fun lenient input rest =>
      ∃ middle, phrase lenient input middle ∧ other lenient middle rest) input rest where
  suffix := second.suffix.trans first.suffix
  opened clean := by
    have behind : ¬ danglingComma <:+: middle :=
      fun dangling => clean (dangling.trans first.suffix.isInfix)
    exact ⟨middle, first.opened clean, second.opened behind⟩
  closed clean behind := by
    have middleClean : ¬ danglingComma <:+: middle :=
      fun dangling => clean (dangling.trans first.suffix.isInfix)
    rcases second.closed middleClean behind with ⟨between, later⟩
    rcases first.closed clean between with ⟨missing, earlier⟩
    exact ⟨missing, _, earlier, later⟩

theorem imp (holds : Completes phrase input rest)
    (step : ∀ lenient input rest, phrase lenient input rest → other lenient input rest) :
    Completes other input rest where
  suffix := holds.suffix
  opened clean := step _ _ _ (holds.opened clean)
  closed clean behind := (holds.closed clean behind).imp fun _ => step _ _ _

/-- A block that is closed by the end of the input lacks one brace more than
its statements. -/
theorem unclosed (statements : Completes Statements input []) :
    Completes Block (.symbol .leftBrace :: input) [] where
  suffix := List.nil_suffix
  opened clean :=
    .unclosed rfl (statements.opened fun dangling =>
      clean (dangling.trans (List.suffix_cons _ _).isInfix))
  closed clean behind := by
    have inside : ¬ danglingComma <:+: input := fun dangling =>
      clean (dangling.trans (List.suffix_cons _ _).isInfix)
    rcases statements.closed inside (behind + 1) with ⟨missing, derived⟩
    exact ⟨missing, .closed derived⟩

end Completes

theorem Continuations.concat {lenient : Bool} {input middle rest : List Token} :
    Continuations lenient input middle → Continuation lenient middle rest →
      Continuations lenient input rest
  | .nil, last => .cons last .nil
  | .cons first others, last => .cons first (others.concat last)

/-- An expression may always be continued. -/
theorem Expression.continued {lenient : Bool} {input middle rest : List Token}
    (expression : Expression lenient input middle) (last : Continuation lenient middle rest) :
    Expression lenient input rest := by
  cases expression with
  | mk operand others => exact .mk operand (others.concat last)

end Monkey.Grammar.Outline

namespace Monkey.Grammar

open Outline (Completes danglingComma)
open Outline.Completes (takes)

theorem Terminator.outline {input rest : List Token} (terminator : Terminator input rest) :
    Completes (fun _ => Outline.Semicolon) input rest := by
  cases terminator with
  | semicolon => exact (takes _).imp fun | _, _, _, rfl => .present
  | omitted => exact ⟨List.suffix_refl _, fun _ => .absent, fun _ behind => ⟨behind, .absent⟩⟩

theorem Names.outline {input rest : List Token} {names : List String}
    (derived : Names input names rest) :
    Completes (fun _ input rest => Outline.Parameters input (.symbol .rightParen :: rest))
      input rest := by
  induction derived with
  | last =>
    exact ((takes _).seq (.takes _)).imp fun | _, _, _, ⟨_, rfl, rfl⟩ => .last
  | more _ inductionHypothesis =>
    exact ((takes _).seq ((takes _).seq inductionHypothesis)).imp
      fun | _, _, _, ⟨_, rfl, _, rfl, others⟩ => .more others

mutual

theorem Expression.outline {layer : Layer} {input rest : List Token} {value : Expr} :
    Expression layer input value rest → Completes Outline.Expression input rest
  | .operand operand => operand.outline
  | .binary _ left right =>
      (left.outline.seq ((takes _).seq right.outline)).imp
        fun | _, _, _, ⟨_, left, _, rfl, right⟩ => left.continued (.binary right)
  | .unary operand =>
      ((takes _).seq operand.outline).imp
        fun | _, _, _, ⟨_, rfl, operand⟩ => .mk (.unary operand) .nil
  | .chain chain _ => chain.outline

theorem Chain.outline {input rest : List Token} {value : Expr} :
    Chain input value rest → Completes Outline.Expression input rest
  | .primary primary => primary.outline.imp fun _ _ _ operand => .mk operand .nil
  | .call function listing => by
      have opened := function.outline
      rcases listing.outline with rfl | arguments
      · exact (opened.seq ((takes _).seq (.takes _))).imp
          fun | _, _, _, ⟨_, function, _, rfl, rfl⟩ => function.continued .emptyCall
      · exact (opened.seq ((takes _).seq arguments)).imp
          fun | _, _, _, ⟨_, function, _, rfl, arguments⟩ => function.continued (.call arguments)
  | .index indexed index =>
      (indexed.outline.seq ((takes _).seq (index.outline.seq (.takes _)))).imp
        fun | _, _, _, ⟨_, indexed, _, rfl, _, index, rfl⟩ => indexed.continued (.index index)

theorem Primary.outline {input rest : List Token} {value : Expr} :
    Primary input value rest → Completes Outline.Operand input rest
  | .ident => (takes _).imp fun | _, _, _, rfl => .ident
  | .int _ => (takes _).imp fun | _, _, _, rfl => .int
  | .string => (takes _).imp fun | _, _, _, rfl => .string
  | .true => (takes _).imp fun | _, _, _, rfl => .true
  | .false => (takes _).imp fun | _, _, _, rfl => .false
  | .group inner =>
      ((takes _).seq (inner.outline.seq (.takes _))).imp
        fun | _, _, _, ⟨_, rfl, _, inner, rfl⟩ => .group inner
  | .cond test first =>
      ((takes _).seq ((takes _).seq
        (test.outline.seq ((takes _).seq first.outline)))).imp
        fun | _, _, _, ⟨_, rfl, _, rfl, _, test, _, rfl, first⟩ => .cond test first
  | .otherwise test first second =>
      ((takes _).seq ((takes _).seq
        (test.outline.seq ((takes _).seq
          (first.outline.seq ((takes _).seq second.outline)))))).imp
        fun
          | _, _, _, ⟨_, rfl, _, rfl, _, test, _, rfl, _, first, _, rfl, second⟩ =>
            .otherwise test first second
  | .function parameters block => by
      have body := block.outline
      cases parameters with
      | empty =>
        exact ((takes _).seq ((takes _).seq
          ((takes _).seq body))).imp
          fun | _, _, _, ⟨_, rfl, _, rfl, _, rfl, body⟩ => .procedure body
      | names names =>
        exact ((takes _).seq ((takes _).seq (names.outline.seq body))).imp
          fun | _, _, _, ⟨_, rfl, _, rfl, _, names, body⟩ => .function names body
  | .array listing => by
      rcases listing.outline with rfl | elements
      · exact ((takes _).seq (.takes _)).imp fun | _, _, _, ⟨_, rfl, rfl⟩ => .emptyArray
      · exact ((takes _).seq elements).imp
          fun | _, _, _, ⟨_, rfl, elements⟩ => .array elements
  | .hash pairs => by
      rcases pairs.outline with rfl | pairs
      · exact ((takes _).seq (.takes _)).imp fun | _, _, _, ⟨_, rfl, rfl⟩ => .emptyHash
      · exact ((takes _).seq pairs).imp fun | _, _, _, ⟨_, rfl, pairs⟩ => .hash pairs

theorem Listing.outline {close : Symbol} {input rest : List Token} {values : List Expr} :
    Listing close input values rest →
      input = .symbol close :: rest ∨
        Completes (fun lenient input rest =>
          Outline.Arguments lenient input (.symbol close :: rest)) input rest
  | .empty => .inl rfl
  | .items items => .inr items.outline

theorem Items.outline {close : Symbol} {input rest : List Token} {values : List Expr} :
    Items close input values rest →
      Completes (fun lenient input rest =>
        Outline.Arguments lenient input (.symbol close :: rest)) input rest
  | .last item =>
      (item.outline.seq (.takes _)).imp fun | _, _, _, ⟨_, item, rfl⟩ => .last item
  | .more item others =>
      (item.outline.seq ((takes _).seq others.outline)).imp
        fun | _, _, _, ⟨_, item, _, rfl, others⟩ => .more item others

theorem Pairs.outline {input rest : List Token} {entries : List (Expr × Expr)} :
    Pairs input entries rest →
      input = .symbol .rightBrace :: rest ∨
        Completes (fun lenient input rest =>
          Outline.Pairs lenient input (.symbol .rightBrace :: rest)) input rest
  | .empty => .inl rfl
  | .last left right =>
      .inr ((left.outline.seq ((takes _).seq
        (right.outline.seq (.takes _)))).imp
        fun | _, _, _, ⟨_, left, _, rfl, _, right, rfl⟩ => .last left right)
  | .more left right others => by
      have front := left.outline.seq ((takes _).seq right.outline)
      rcases others.outline with rfl | others
      · -- The comma behind the last pair is the one that the outline does not know.
        have dangling := (List.prefix_append danglingComma rest).isInfix.trans front.suffix.isInfix
        exact .inr ⟨(List.suffix_append danglingComma rest).trans front.suffix,
          fun clean => absurd dangling clean, fun clean => absurd dangling clean⟩
      · exact .inr ((front.seq ((takes _).seq others)).imp
          fun | _, _, _, ⟨_, ⟨_, left, _, rfl, right⟩, _, rfl, others⟩ => .more left right others)

theorem Block.outline {input rest : List Token} {body : List Stmt} :
    Block input body rest → Completes Outline.Block input rest
  | .closed statements =>
      ((takes _).seq (statements.outline.seq (.takes _))).imp
        fun | _, _, _, ⟨_, rfl, _, statements, rfl⟩ => .closed statements
  | .unclosed statements => .unclosed statements.outline

theorem Statement.outline {input rest : List Token} {first : Stmt} :
    Statement input first rest → Completes Outline.Statement input rest
  | .bind expression terminator =>
      ((takes _).seq ((takes _).seq ((takes _).seq
        (expression.outline.seq terminator.outline)))).imp
        fun
          | _, _, _, ⟨_, rfl, _, rfl, _, rfl, _, value, semicolon⟩ => .bind value semicolon
  | .return expression terminator =>
      ((takes _).seq (expression.outline.seq terminator.outline)).imp
        fun | _, _, _, ⟨_, rfl, _, value, semicolon⟩ => .return value semicolon
  | .expr expression terminator =>
      (expression.outline.seq terminator.outline).imp
        fun | _, _, _, ⟨_, value, semicolon⟩ => .expr value semicolon

theorem Statements.outline {input rest : List Token} {program : List Stmt} :
    Statements input program rest → Completes Outline.Statements input rest
  | .nil => ⟨List.suffix_refl _, fun _ => .nil, fun _ behind => ⟨behind, .nil⟩⟩
  | .cons statement following =>
      (statement.outline.seq following.outline).imp
        fun | _, _, _, ⟨_, first, others⟩ => .cons first others

end

/-- A sentence without a comma in front of a closing brace belongs to the lenient
outline, and to the strict one when the braces that it lacks are added. -/
theorem Sentence.outline {tokens : List Token} {program : Monkey.Program}
    (sentence : Sentence tokens program) (clean : ¬ danglingComma <:+: tokens) :
    Outline.Program true tokens ∧
      ∃ missing,
        tokens.count (.symbol .leftBrace) = tokens.count (.symbol .rightBrace) + missing ∧
          Outline.Program false (tokens ++ Outline.closing missing) := by
  have completes := Statements.outline sentence
  rcases completes.closed clean 0 with ⟨missing, derived⟩
  have balanced := Outline.Program.balanced derived
  simp only [Outline.closing, List.count_append, List.count_replicate] at balanced
  exact ⟨completes.opened clean, missing, by simpa using balanced, derived⟩

end Monkey.Grammar

namespace Monkey

open Grammar

/-- A source that is read without a diagnostic, and in which no comma stands in
front of a closing brace, follows the rules of the outline, except that the end
of the input may stand for the closing brace of a block. Behind as many closing
braces as it has fewer than opening ones it follows them without exception. -/
theorem Draft.outline_of_clean (source : String)
    (clean : (Draft.ofSource source).diagnostics = [])
    (noDangling : ¬ Outline.danglingComma <:+: Token.ofSource source) :
    Outline.Program true (Token.ofSource source) ∧
      ∃ missing,
        (Token.ofSource source).count (.symbol .leftBrace) =
          (Token.ofSource source).count (.symbol .rightBrace) + missing ∧
        Outline.Program false
          (Token.ofSource source ++ List.replicate missing (.symbol .rightBrace)) := by
  have read : Draft.ofTokens (Token.ofSource source) = ⟨(Draft.ofSource source).statements, []⟩ :=
    congrArg (Draft.mk _) clean
  exact (ofTokens_eq_iff_sentence.mp read).outline noDangling

/-- Two blocks are left open, one in the other, and a hash stands in the inner
one. -/
def Draft.openBlocks : String := "let f = fn(x) \x7b if (x) \x7b \x7b1: [x, 2]\x7d"

/-- The source with open blocks lacks two closing braces. -/
theorem Draft.outline_of_openBlocks :
    (Draft.ofSource openBlocks).diagnostics = [] ∧
      ¬ Outline.danglingComma <:+: Token.ofSource openBlocks ∧
      Outline.Program true (Token.ofSource openBlocks) ∧
      Outline.Program false
        (Token.ofSource openBlocks ++ List.replicate 2 (.symbol .rightBrace)) := by
  have clean : (Draft.ofSource openBlocks).diagnostics = [] := by decide +kernel
  have noDangling : ¬ Outline.danglingComma <:+: Token.ofSource openBlocks := by decide +kernel
  rcases Draft.outline_of_clean openBlocks clean noDangling with ⟨lenient, missing, count, strict⟩
  have opened : (Token.ofSource openBlocks).count (.symbol .leftBrace) = 3 := by decide +kernel
  have shut : (Token.ofSource openBlocks).count (.symbol .rightBrace) = 1 := by decide +kernel
  obtain rfl : missing = 2 := by omega
  exact ⟨clean, noDangling, lenient, strict⟩

/-- Neither a block that is left open nor a comma behind the last pair of a hash
is reported, but both are against the rules. -/
theorem Draft.outline_fails_of_clean :
    ((Draft.ofSource "fn() \x7b 1").diagnostics = [] ∧
      ¬ Outline.Program false (Token.ofSource "fn() \x7b 1")) ∧
    ((Draft.ofSource "\x7b1: 2,\x7d").diagnostics = [] ∧
      ¬ Outline.Program false (Token.ofSource "\x7b1: 2,\x7d")) := by
  refine ⟨⟨by decide +kernel, ?_⟩, ⟨by decide +kernel, ?_⟩⟩
  · intro program
    have balanced := program.balanced
    revert balanced
    decide +kernel
  · intro program
    exact program.no_danglingComma (by decide +kernel)

end Monkey
