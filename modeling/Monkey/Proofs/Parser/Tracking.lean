import Monkey.Proofs.Parser.Account
import Monkey.Proofs.Parser.Reads

/-!
# Parsers beside parsers with a log

A parser of a program fails together with its diagnostic, a parser with a log records
diagnostics and gives up. Here the second is compared with the first. There is one rule
for each way of composing parsers and one for each parser of single tokens: the two end
alike, and the one with the log has recorded exactly one diagnostic of its own if it
gives up, and none if it does not.
-/

namespace Monkey

/-! ## Parts of readings -/

namespace Parser

theorem expect_cons (mark : Symbol) (token : Token) (rest : List Token) :
    expect mark (token :: rest) =
      if token.kind = .symbol mark then done () rest
      else unexpected (.symbol mark) (token :: rest) := by
  cases token <;> simp [expect, Token.kind]

theorem identifier_cons (token : Token) (rest : List Token) :
    identifier (token :: rest) =
      if token.kind = .ident then done token.literal rest
      else unexpected .ident (token :: rest) := by
  cases token <;> simp [identifier, Token.kind, Token.literal]

theorem accept_eq (mark : Symbol) (tokens : List Token) :
    accept mark tokens =
      if nextKind tokens = .symbol mark then done true tokens.tail else done false tokens := by
  cases tokens with
  | nil => rfl
  | cons token rest => cases token <;> simp [accept, nextKind, Token.kind]

theorem map_eq_bind {α β : Type} (f : α → β) (parser : Parser α) (tokens : List Token) :
    (parser tokens).map f = (parser >>= fun value => pure (f value)) tokens := by
  rcases parsed : parser tokens with ⟨diagnostics, diagnostic | value, rest⟩
  · rw [bind_apply_of_error parsed]
    rfl
  · rw [bind_apply_of_ok parsed, pure_apply, List.append_nil]
    rfl

/-- Further parameters are read one by one, each behind a comma. -/
theorem moreParameters_eq (tokens : List Token) :
    moreParameters tokens =
      (do
        if ← accept .comma then
          let name ← identifier
          return name :: (← moreParameters)
        else
          expect .rightParen
          return []) tokens := by
  fun_cases moreParameters tokens with
  | case1 rest => rfl
  | case2 name rest =>
    rw [map_eq_bind]
    rfl
  | case3 rest notIdentifier =>
    cases rest with
    | nil => rfl
    | cons token behind =>
      cases token with
      | ident name => exact (notIdentifier name behind rfl).elim
      | _ => rfl
  | case4 tokens notClosed _ noComma =>
    cases tokens with
    | nil => rfl
    | cons token behind =>
      cases token with
      | symbol mark =>
        cases mark with
        | rightParen => exact (notClosed behind rfl).elim
        | comma => exact (noComma behind rfl).elim
        | _ => rfl
      | _ => rfl

theorem parameters_eq (tokens : List Token) :
    parameters tokens =
      (do
        if ← accept .rightParen then return []
        else
          let name ← identifier
          return name :: (← moreParameters)) tokens := by
  fun_cases parameters tokens with
  | case1 rest => rfl
  | case2 _ notClosed =>
    have absent : tokens.head? ≠ some (.symbol .rightParen) := by
      intro head
      rcases List.head?_eq_some_iff.mp head with ⟨rest, rfl⟩
      exact notClosed rest rfl
    rw [bind_apply_of_ok (accept_of_head?_ne absent)]
    rfl

/-- The statements of two drafts, one behind the other. -/
theorem ofDraft_bind_append (first later : List Token → Draft × List Token)
    (tokens : List Token) :
    (ofDraft first >>= fun front => ofDraft later >>= fun back => pure (front ++ back)) tokens =
      ⟨((first tokens).1 ++ (later (first tokens).2).1).diagnostics,
        .ok ((first tokens).1 ++ (later (first tokens).2).1).statements,
        (later (first tokens).2).2⟩ := by
  have front : ofDraft first tokens =
      ⟨(first tokens).1.diagnostics, .ok (first tokens).1.statements, (first tokens).2⟩ := rfl
  have back (remaining : List Token) : ofDraft later remaining =
      ⟨(later remaining).1.diagnostics, .ok (later remaining).1.statements,
        (later remaining).2⟩ := rfl
  rw [bind_apply_of_ok front, bind_apply_of_ok (back _)]
  simp

end Parser

/-! ## Failures -/

namespace Run

variable {α β : Type}

/-- The run ends like a parser whose failures bring their diagnostic along. Either there is
a value and the run has recorded nothing of its own; or it has given up, and the diagnostic
of the failure is the only one of its own and the last one of all. -/
inductive Matches : Run α → Parsed α → Prop
  | value {errors : List Diagnostic} {attempts : List Attempt} {value : α} {rest : List Token} :
      Matches ⟨⟨errors, [], attempts⟩, some value, rest⟩ ⟨errors, .ok value, rest⟩
  | failure {errors : List Diagnostic} {attempts : List Attempt} {diagnostic : Diagnostic}
      {rest : List Token} :
      Matches ⟨⟨errors ++ [diagnostic], [diagnostic], attempts⟩, none, rest⟩
        ⟨errors, .error diagnostic, rest⟩

namespace Matches

variable {run : Run α} {parsed : Parsed α}

theorem map (f : α → β) (same : run.Matches parsed) : (run.map f).Matches (parsed.map f) := by
  cases same with
  | value => exact .value
  | failure => exact .failure

/-- A run behind another that had a value. -/
theorem behind (errors : List Diagnostic) (attempts : List Attempt) (same : run.Matches parsed) :
    (⟨⟨errors, [], attempts⟩ ++ run.log, run.result, run.rest⟩ : Run α).Matches
      ⟨errors ++ parsed.diagnostics, parsed.outcome, parsed.rest⟩ := by
  cases same with
  | value => exact .value
  | @failure later laterAttempts diagnostic rest =>
    have last : (⟨errors, [], attempts⟩ : Log) ++ ⟨later ++ [diagnostic], [diagnostic],
        laterAttempts⟩ = ⟨errors ++ later ++ [diagnostic], [diagnostic],
          attempts ++ laterAttempts⟩ :=
      congrArg (Log.mk · _ _) (List.append_assoc _ _ _).symm
    rw [last]
    exact .failure

theorem of_ok {errors : List Diagnostic} {value : α} {rest : List Token}
    (same : run.Matches ⟨errors, .ok value, rest⟩) :
    run.log.errors = errors ∧ run.log.own = [] ∧ run.result = some value ∧ run.rest = rest := by
  cases same
  exact ⟨rfl, rfl, rfl, rfl⟩

theorem endsAs {run : Run Stmt} {parsed : Parsed Stmt} (same : run.Matches parsed)
    (start : List Token) : Attempt.EndsAs ⟨start, run.log.own, run.result⟩ parsed.outcome := by
  cases same with
  | value => exact ⟨rfl, rfl⟩
  | failure => exact ⟨rfl, rfl⟩

/-- The diagnostic of a statement that is dropped goes over to the draft. -/
theorem attempt {run : Run Stmt} {parser : Parser Stmt} {tokens : List Token}
    (same : run.Matches (parser tokens)) (attempts : List Attempt) :
    (⟨⟨run.log.errors, [], attempts⟩, some run.result.toList, run.rest⟩ : Run Block).Matches
      (Parser.ofDraft (Parser.attempt parser) tokens) := by
  unfold Parser.ofDraft Parser.attempt
  generalize parser tokens = parsed at same
  cases same with
  | value => exact .value
  | failure => exact .value

end Matches

end Run

/-! ## Parsers and their logs -/

namespace Tracer

variable {α β : Type}

/-- What a parser with a log does: it has a run, which ends like the parser
without a log and accounts for its tokens. -/
def Tracks (traced : Option (Run α)) (parsed : Parsed α) (size : α → Nat) (carried : Nat)
    (base : List Token) : Prop :=
  ∃ run, traced = some run ∧ run.Matches parsed ∧ run.Accounts size carried base

namespace Tracks

variable {size : α → Nat} {larger : β → Nat} {carried : Nat} {tokens base : List Token}

theorem done {value : α} (le : size value ≤ carried) :
    Tracks (Tracer.done value tokens) (Parser.done value tokens) size carried tokens := by
  refine ⟨_, rfl, .value, .quiet (List.suffix_refl _) ?_⟩
  rintro _ ⟨⟩
  exact le

/-- A diagnostic is recorded, and the parser gives up. -/
theorem fail (diagnostic : Diagnostic) :
    Tracks (resume tokens (do record diagnostic; giveUp : Tracer α))
      (Parser.fail diagnostic tokens) size carried tokens :=
  ⟨⟨⟨[diagnostic], [diagnostic], []⟩, none, tokens⟩, rfl,
    @Run.Matches.failure α [] [] diagnostic tokens, .quiet (List.suffix_refl _) nofun⟩

variable {traced : Option (Run α)} {parsed : Parsed α}

theorem mono {longer : List Token} (tracks : Tracks traced parsed size carried base)
    (suffix : base <:+ longer) : Tracks traced parsed size carried longer := by
  rcases tracks with ⟨run, ran, same, accounts⟩
  exact ⟨run, ran, same, accounts.mono suffix⟩

theorem map {f : α → β} (tracks : Tracks traced parsed size carried base)
    (le : ∀ value, larger (f value) ≤ size value) :
    Tracks (traced.map (Run.map f)) (parsed.map f) larger carried base := by
  rcases tracks with ⟨run, rfl, same, accounts⟩
  exact ⟨run.map f, rfl, same.map f, accounts.map le⟩

/-- Statements that were read before are carried along. -/
theorem carry (more : Nat) (tracks : Tracks traced parsed size carried base) :
    Tracks traced parsed (fun value => more + size value) (more + carried) base := by
  rcases tracks with ⟨run, ran, same, accounts⟩
  refine ⟨run, ran, same, { accounts with size := fun value eq => ?_ }⟩
  have le := accounts.size value eq
  omega

variable {tracer : Tracer α} {parser : Parser α} {next : α → Tracer β} {later : α → Parser β}

/-- One parser behind another that ended with the given value. -/
theorem bind_of_parsed (first : Tracks (tracer tokens) (parser tokens) size carried base)
    (second : ∀ diagnostics value rest, parser tokens = ⟨diagnostics, .ok value, rest⟩ →
      rest <:+ base → Tracks (next value rest) (later value rest) larger (size value) rest) :
    Tracks ((tracer >>= next) tokens) ((parser >>= later) tokens) larger carried base := by
  rcases first with ⟨run, ran, same, accounts⟩
  generalize ended : parser tokens = parsed at same
  cases same with
  | @failure errors attempts diagnostic rest =>
    have noSize : ∀ value, none = some value →
        larger value ≤ carried + readCount attempts := nofun
    refine ⟨⟨⟨errors ++ [diagnostic], [diagnostic], attempts⟩, none, rest⟩, ?_, ?_,
      { accounts with size := noSize }⟩
    · rw [bind_apply, andThen, ran]
    · rw [Parser.bind_apply_of_error ended]
      exact .failure
  | @value errors attempts value rest =>
    rcases second errors value rest ended accounts.suffix with
      ⟨run, laterRan, laterSame, laterAccounts⟩
    refine ⟨⟨⟨errors, [], attempts⟩ ++ run.log, run.result, run.rest⟩, ?_, ?_,
      accounts.append laterAccounts⟩
    · rw [bind_apply, andThen, ran]
      simp only [laterRan, Option.map_some]
    · rw [Parser.bind_apply_of_ok ended]
      exact laterSame.behind errors attempts

theorem bind (first : Tracks (tracer tokens) (parser tokens) size carried base)
    (second : ∀ value rest, rest <:+ base →
      Tracks (next value rest) (later value rest) larger (size value) rest) :
    Tracks ((tracer >>= next) tokens) ((parser >>= later) tokens) larger carried base :=
  bind_of_parsed first fun _ value rest _ => second value rest

/-- A parser that attempts no statement, before others. -/
theorem silent_bind (silent : parser.Silent)
    (first : Tracks (tracer tokens) (parser tokens) (fun _ => carried) carried tokens)
    (second : ∀ value rest, Parser.Reads parser tokens value rest → rest <:+ tokens →
      Tracks (next value rest) (later value rest) larger carried rest) :
    Tracks ((tracer >>= next) tokens) ((parser >>= later) tokens) larger carried tokens := by
  refine bind_of_parsed first fun diagnostics value rest parsed suffix => ?_
  obtain rfl : diagnostics = [] := by simpa [parsed] using (silent tokens).1
  exact second value rest parsed suffix

/-! ## Single tokens -/

/-- A parser for which only the kind of the next token matters. -/
theorem take {expected : Token.Kind} {of : Token → α}
    (ofNil : parser [] = Parser.unexpected expected [])
    (ofCons : ∀ token rest, parser (token :: rest) =
      if token.kind = expected then Parser.done (of token) rest
      else Parser.unexpected expected (token :: rest))
    (le : ∀ token, size (of token) ≤ carried) :
    Tracks ((Tracer.take expected >>= fun token => pure (of token)) tokens) (parser tokens) size
      carried tokens := by
  rw [bind_apply, andThen]
  cases tokens with
  | nil =>
    rw [ofNil]
    exact fail _
  | cons token rest =>
    by_cases same : token.kind = expected
    · rw [ofCons, Tracer.take, if_pos same, if_pos same]
      exact (done (le token)).mono (List.suffix_cons token rest)
    · rw [ofCons, Tracer.take, if_neg same, if_neg same]
      exact fail _

theorem expect (mark : Symbol) : Tracks (Tracer.expect mark tokens) (Parser.expect mark tokens)
    (fun _ => carried) carried tokens :=
  take rfl (Parser.expect_cons mark) fun _ => Nat.le_refl carried

theorem identifier : Tracks (Tracer.identifier tokens) (Parser.identifier tokens)
    (fun _ => carried) carried tokens :=
  take rfl Parser.identifier_cons fun _ => Nat.le_refl carried

theorem accept (mark : Symbol) : Tracks (Tracer.accept mark tokens) (Parser.accept mark tokens)
    (fun _ => carried) carried tokens := by
  rw [Parser.accept_eq, Tracer.accept]
  split
  · exact (done (Nat.le_refl carried)).mono (List.tail_suffix tokens)
  · exact done (Nat.le_refl carried)

theorem integer (digits : String) :
    Tracks (Tracer.integer digits tokens) (Parser.integer digits tokens) Expr.statementCount 0
      tokens := by
  simp only [Tracer.integer, Parser.integer]
  split
  · exact done (Nat.le_refl 0)
  · exact fail _

/-- Behind a symbol that was taken there are fewer tokens. -/
theorem expect_bind {mark : Symbol} {next : Unit → Tracer β} {later : Unit → Parser β}
    (second : ∀ rest, tokens = .symbol mark :: rest →
      Tracks (next () rest) (later () rest) larger carried rest) :
    Tracks ((Tracer.expect mark >>= next) tokens) ((Parser.expect mark >>= later) tokens)
      larger carried tokens :=
  silent_bind (Parser.silent_expect mark) (expect mark) fun _ rest read _ =>
    second rest (Parser.reads_expect_iff.mp read)

/-- Behind a symbol that was accepted there are fewer tokens. -/
theorem accept_bind {mark : Symbol} {next : Bool → Tracer β} {later : Bool → Parser β}
    (taken : ∀ rest, tokens = .symbol mark :: rest →
      Tracks (next true rest) (later true rest) larger carried rest)
    (passed : Tracks (next false tokens) (later false tokens) larger carried tokens) :
    Tracks ((Tracer.accept mark >>= next) tokens) ((Parser.accept mark >>= later) tokens)
      larger carried tokens := by
  refine silent_bind (Parser.silent_accept mark) (accept mark) fun accepted rest read _ => ?_
  rcases Parser.reads_accept_iff.mp read with ⟨rfl, eq⟩ | ⟨rfl, -, rfl⟩
  · exact taken rest eq
  · exact passed

theorem moreParameters {depth : Nat} (lt : tokens.length < depth) :
    Tracks (Tracer.moreParameters depth tokens) (Parser.moreParameters tokens)
      (fun _ => carried) carried tokens := by
  induction depth generalizing tokens with
  | zero => exact absurd lt (Nat.not_lt_zero _)
  | succ depth inductionHypothesis =>
    rw [Parser.moreParameters_eq]
    refine accept_bind (fun rest eq => ?_) ?_
    · refine silent_bind Parser.silent_identifier identifier fun name remaining _ suffix => ?_
      have shorter := suffix.length_le
      rw [eq, List.length_cons] at lt
      refine (inductionHypothesis (by omega)).bind fun names last _ => ?_
      exact done (Nat.le_refl carried)
    · exact expect_bind fun rest _ => done (Nat.le_refl carried)

theorem parameters {depth : Nat} (lt : tokens.length < depth) :
    Tracks (Tracer.parameters depth tokens) (Parser.parameters tokens)
      (fun _ => carried) carried tokens := by
  rw [Parser.parameters_eq]
  refine accept_bind (fun rest _ => done (Nat.le_refl carried)) ?_
  refine silent_bind Parser.silent_identifier identifier fun name rest _ suffix => ?_
  have shorter := suffix.length_le
  refine (moreParameters (by omega)).bind fun names last _ => ?_
  exact done (Nat.le_refl carried)

/-! ## Statements -/

/-- An attempt at a statement. -/
theorem attempt {tracer : Tracer Stmt} {depth : Nat} {token : Token} {rest : List Token}
    (tracks : Tracks (tracer (token :: rest)) (Parser.statement depth (token :: rest))
      Stmt.innerCount 0 rest)
    (deep : 8 * ((token :: rest).length + 1) + 3 ≤ depth) :
    Tracks (Tracer.attempt tracer (token :: rest))
      (Parser.ofDraft (Parser.attempt (Parser.statement depth)) (token :: rest))
      Block.statementCount 0 (token :: rest) := by
  rcases tracks with ⟨run, ran, same, accounts⟩
  have genuine := (same.endsAs (token :: rest)).genuine deep
  have attempted : Tracer.attempt tracer (token :: rest) =
      some ⟨⟨run.log.errors, [], run.log.attempts ++ [⟨token :: rest, run.log.own, run.result⟩]⟩,
        some run.result.toList, run.rest⟩ := by
    rw [Tracer.attempt, ran, Option.map_some]
  exact ⟨_, attempted, same.attempt _, accounts.attempt genuine⟩

/-- An attempt at a statement and the statements behind it. -/
theorem attempt_bind {depth : Nat} {token : Token} {rest : List Token} (next : Tracer Block)
    (later : List Token → Draft × List Token)
    (deep : 8 * ((token :: rest).length + 1) + 3 ≤ depth)
    (first : Tracks (statement depth (token :: rest)) (Parser.statement depth (token :: rest))
      Stmt.innerCount 0 rest)
    (second : ∀ remaining, remaining.length ≤ rest.length →
      Tracks (next remaining) (Parser.ofDraft later remaining) Block.statementCount 0 remaining) :
    let attempted := Parser.attempt (Parser.statement depth) (token :: rest)
    Tracks
      ((Tracer.attempt (statement depth) >>= fun front =>
        next >>= fun back => pure (front ++ back)) (token :: rest))
      ⟨(attempted.1 ++ (later attempted.2).1).diagnostics,
        .ok (attempted.1 ++ (later attempted.2).1).statements, (later attempted.2).2⟩
      Block.statementCount 0 (token :: rest) := by
  have joined : Tracks
      ((Tracer.attempt (statement depth) >>= fun front =>
        next >>= fun back => pure (front ++ back)) (token :: rest))
      ((Parser.ofDraft (Parser.attempt (Parser.statement depth)) >>= fun front =>
        Parser.ofDraft later >>= fun back => pure (front ++ back)) (token :: rest))
      Block.statementCount 0 (token :: rest) := by
    refine (first.attempt deep).bind_of_parsed fun _ front remaining parsed _ => ?_
    have shorter : remaining.length ≤ rest.length := by
      obtain ⟨depth, rfl⟩ : ∃ n, depth = n + 3 := ⟨depth - 3, by omega⟩
      have eq : (Parser.attempt (Parser.statement (depth + 3)) (token :: rest)).2 = remaining :=
        congrArg Parsed.rest parsed
      exact eq ▸ Parser.length_attempt_statement_le depth token rest
    refine ((second remaining shorter).carry (Block.statementCount front)).bind
      fun back last _ => ?_
    exact .done (Nat.le_of_eq (Block.statementCount_append front back))
  rwa [Parser.ofDraft_bind_append] at joined

end Tracks

end Tracer

end Monkey
