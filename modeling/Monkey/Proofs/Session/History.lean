import Monkey.Proofs.Evaluation.Correspondence
import Monkey.Session

/-!
# The history of a session

A session is given one source after another, and each is run in the state that the
one before left behind. What a source writes does not depend on what was written
before it, and is added behind that.
-/

namespace Monkey

/-! ## Text that was written before -/

/-- The state, with a text written before all that it wrote. -/
def State.prefaced (text : String) (state : State) : State :=
  { state with output := text ++ state.output }

theorem State.findWithin?_prefaced (text : String) (state : State) (name : String) (count : Nat)
    (id : ScopeId) :
    (state.prefaced text).findWithin? name count id = state.findWithin? name count id := by
  induction count generalizing id with
  | zero => rfl
  | succ count inductionHypothesis =>
    simp only [State.findWithin?, inductionHypothesis]
    rfl

/-- Runs with a text written before them, and without. -/
def Correspondence.prefaced (text : String) : Correspondence where
  Readable _ := True
  Closures _ closure other := other = closure
  Scopes _ scope twin := twin = scope
  States state other := other = state.prefaced text
  text _ _ same := same ▸ ⟨rfl, rfl⟩
  readable _ _ _ := trivial
  captured same := congrArg Closure.scope same
  closures_mono _ same := same
  scopes_mono _ same := same
  find _ states same := by
    subst states same
    rw [State.find?, State.find?, State.findWithin?_prefaced]
    cases State.findWithin? _ _ _ _ with
    | none => exact .none
    | some value =>
      refine .some (.refl ?_ value)
      exact fun _ => rfl
  bind _ states same alike := by
    subst states same
    cases alike.eq fun _ _ => id
    rfl
  write output states := by
    subst states
    simp only [State.write, State.prefaced, String.append_assoc]
  count states := by
    subst states
    rfl
  made _ _ _ states same := by
    subst states same
    rfl
  openScope states same alike := by
    subst states same
    cases alike.eq fun _ _ alike => alike.eq fun _ _ => id
    rfl
  opened states := by
    subst states
    rfl

/-- What was written before a program has no influence on it. -/
theorem Program.eval_prefaced (text : String) (depth : Nat) (scope : ScopeId)
    (program : Program) (state : State) :
    program.eval depth scope (state.prefaced text) =
      (program.eval depth scope state).map fun ended => (ended.1, ended.2.prefaced text) := by
  have same : (Correspondence.prefaced text).Scopes state.scopes.size scope scope := rfl
  have ends := (Correspondence.prefaced text).eval_program depth
    (fun _ _ => trivial : (Correspondence.prefaced text).Reads (Block.identifiers program)) same rfl
  generalize program.eval depth scope state = outcome at ends ⊢
  generalize program.eval depth scope (state.prefaced text) = twin at ends ⊢
  cases ends with
  | none => rfl
  | @some ended behind related =>
    rcases behind with ⟨result, behind⟩
    rcases related with ⟨states, alike⟩
    cases alike.eq fun _ _ => id
    cases states
    rfl

/-! ## Replies -/

namespace Reply

/-- The reply, with a text written before all that was written. -/
def prefaced (text : String) : Reply → Reply
  | .rejected diagnostics => .rejected diagnostics
  | .finished value after => .finished value (after.prefaced text)
  | .exhausted => .exhausted

/-- The state behind a reply. It is the state before if nothing was evaluated. -/
def after (before : State) : Reply → State
  | .finished _ after => after
  | .rejected _ | .exhausted => before

/-- There is a reply at all. -/
def Ends (reply : Reply) : Prop :=
  reply ≠ .exhausted

instance (reply : Reply) : Decidable reply.Ends :=
  match reply with
  | .rejected _ | .finished .. => .isTrue nofun
  | .exhausted => .isFalse fun ends => ends rfl

end Reply

namespace Session

variable {depth : Nat} {scope : ScopeId} {source : String} {state : State}

theorem run_of_clean (clean : (Draft.ofSource source).isClean = true) :
    run depth scope source state =
      evaluate depth scope (Draft.ofSource source).statements state := by
  simp only [run, clean, if_true]

theorem run_of_not_clean (dirty : (Draft.ofSource source).isClean = false) :
    run depth scope source state = .rejected (Draft.ofSource source).diagnostics := by
  simp only [run, dirty, Bool.false_eq_true, if_false]

theorem evaluate_prefaced (text : String) (depth : Nat) (scope : ScopeId)
    (program : Program) (state : State) :
    evaluate depth scope program (state.prefaced text) =
      (evaluate depth scope program state).prefaced text := by
  rw [evaluate, Program.eval_prefaced, evaluate]
  cases program.eval depth scope state <;> rfl

/-- What was written before a source is run has no influence on the run. -/
theorem run_prefaced (text : String) (depth : Nat) (scope : ScopeId) (source : String)
    (state : State) :
    run depth scope source (state.prefaced text) =
      (run depth scope source state).prefaced text := by
  cases clean : (Draft.ofSource source).isClean with
  | true => rw [run_of_clean clean, run_of_clean clean, evaluate_prefaced]
  | false =>
    rw [run_of_not_clean clean, run_of_not_clean clean]
    rfl

/-- A state with its output is the state without it, prefaced by that output. -/
theorem prefaced_clearOutput (state : State) :
    (clearOutput state).prefaced state.output = state := by
  rw [clearOutput, State.prefaced, String.append_empty]

theorem clearOutput_prefaced (text : String) (state : State) :
    clearOutput (state.prefaced text) = clearOutput state :=
  rfl

/-! ## One source after another -/

/-- A source, the state in which a session was given it, and the reply. -/
structure Entry where
  source : String
  before : State
  reply : Reply

namespace Entry

/-- The program that was read. -/
def program (entry : Entry) : Program :=
  (Draft.ofSource entry.source).statements

/-- The state behind the run of the source. -/
def after (entry : Entry) : State :=
  entry.reply.after entry.before

/-- What the run of the source wrote: the output behind it, without what had been
written before. -/
def written (entry : Entry) : String :=
  String.ofList (entry.after.output.toList.drop entry.before.output.toList.length)

theorem written_of_output {entry : Entry} {text : String}
    (output : entry.after.output = entry.before.output ++ text) : entry.written = text := by
  rw [written, output, String.toList_append, List.drop_left, String.ofList_toList]

end Entry

/-- What happens when a session is given sources, one after the other. -/
def history (depth : Nat) (scope : ScopeId) : State → List String → List Entry
  | _, [] => []
  | state, source :: rest =>
      let reply := run depth scope source state
      ⟨source, state, reply⟩ :: history depth scope (reply.after state) rest

theorem reply_of_mem_history {state : State} {sources : List String} {entry : Entry}
    (member : entry ∈ history depth scope state sources) :
    entry.reply = run depth scope entry.source entry.before := by
  induction sources generalizing state with
  | nil => cases member
  | cons source rest inductionHypothesis =>
    rcases List.mem_cons.mp member with rfl | later
    · rfl
    · exact inductionHypothesis later

/-- The history of a session goes on behind its first entry. -/
theorem of_history_eq_cons {state : State} {sources : List String} {entry : Entry}
    {back : List Entry} (eq : history depth scope state sources = entry :: back) :
    ∃ source rest, sources = source :: rest ∧
      entry = ⟨source, state, run depth scope source state⟩ ∧
      back = history depth scope ((run depth scope source state).after state) rest := by
  cases sources with
  | nil => cases eq
  | cons source rest =>
    cases eq
    exact ⟨source, rest, rfl, rfl, rfl⟩

/-- How a source is answered does not depend on what was written before. -/
theorem Entry.reply_eq_prefaced {entry : Entry}
    (replies : entry.reply = run depth scope entry.source entry.before) :
    entry.reply =
      (run depth scope entry.source (clearOutput entry.before)).prefaced entry.before.output := by
  rw [← run_prefaced, prefaced_clearOutput, replies]

/-- A source with diagnostics is not evaluated. -/
theorem Entry.rejected {entry : Entry}
    (replies : entry.reply = run depth scope entry.source entry.before)
    (diagnostics : (Draft.ofSource entry.source).diagnostics ≠ []) :
    entry.reply = .rejected (Draft.ofSource entry.source).diagnostics ∧
      entry.after = entry.before := by
  have reply : entry.reply = .rejected (Draft.ofSource entry.source).diagnostics :=
    replies.trans (run_of_not_clean (List.isEmpty_eq_false_iff.mpr diagnostics))
  exact ⟨reply, by rw [after, reply, Reply.after]⟩

/-- What a source writes is added behind what was written before. -/
theorem Entry.output_after {entry : Entry}
    (replies : entry.reply = run depth scope entry.source entry.before) :
    entry.after.output = entry.before.output ++ entry.written := by
  suffices grows : ∃ text, entry.after.output = entry.before.output ++ text by
    rcases grows with ⟨text, output⟩
    rw [written_of_output output, output]
  rw [after, entry.reply_eq_prefaced replies]
  cases run depth scope entry.source (clearOutput entry.before) with
  | rejected | exhausted => exact ⟨"", (String.append_empty).symm⟩
  | finished value after => exact ⟨after.output, rfl⟩

end Session

end Monkey
