import Monkey.Proofs.CommandLine.Transcript
import Monkey.Proofs.Evaluation.Signals
import Monkey.Proofs.Grammar.Concatenation

/-!
# Scripts and prompts

A script is read as a whole and evaluated once. If each of its lines is closed, then
its statements are those of the lines, and its evaluation is the session with the
lines, up to the first error.
-/

namespace Monkey

/-! ## Closed sources -/

/-- A source that is read without a diagnostic, ends with a semicolon and has as many
opening as closing braces. -/
structure Draft.Closed (source : String) : Prop where
  clean : (Draft.ofSource source).diagnostics = []
  last : (Token.ofSource source).getLast? = some (.symbol .semicolon)
  balanced : (Token.ofSource source).count (.symbol .leftBrace) =
    (Token.ofSource source).count (.symbol .rightBrace)

instance (source : String) : Decidable (Draft.Closed source) :=
  decidable_of_iff
    ((Draft.ofSource source).diagnostics = [] ∧
      (Token.ofSource source).getLast? = some (.symbol .semicolon) ∧
      (Token.ofSource source).count (.symbol .leftBrace) =
        (Token.ofSource source).count (.symbol .rightBrace))
    ⟨fun ⟨clean, last, balanced⟩ => ⟨clean, last, balanced⟩,
      fun ⟨clean, last, balanced⟩ => ⟨clean, last, balanced⟩⟩

/-- The statements of sources, read one by one. -/
def Program.ofSources (sources : List String) : Program :=
  sources.flatMap fun source => (Draft.ofSource source).statements

/-- Closed sources behind each other are read as they are one by one. -/
theorem Draft.ofSource_join {sources : List String}
    (closed : ∀ source ∈ sources, Draft.Closed source) :
    Draft.ofSource (String.join sources) = ⟨Program.ofSources sources, []⟩ := by
  induction sources with
  | nil =>
    rw [String.join_nil, Draft.ofSource, Token.ofSource, String.toList_empty, Token.ofChars_nil,
      Draft.ofTokens_nil]
    rfl
  | cons source rest inductionHypothesis =>
    rw [List.forall_mem_cons] at closed
    rcases closed with ⟨first, others⟩
    have read : Draft.ofTokens (Token.ofSource source) =
        ⟨(Draft.ofSource source).statements, []⟩ := congrArg (Draft.mk _) first.clean
    have derived := Grammar.ofTokens_eq_iff_sentence.mp read
    have tokens := Token.ofSource_append_of_getLast? first.last (by decide) (String.join rest)
    have following : Draft.ofTokens (Token.ofSource (String.join rest)) =
        ⟨Program.ofSources rest, []⟩ := inductionHypothesis others
    rw [String.join_cons, Draft.ofSource, tokens,
      derived.ofTokens_append ⟨first.last, Nat.le_of_eq first.balanced⟩, following]
    rfl

/-! ## Entries that go on -/

/-- The cause of the error that is the value of a source, if it is one. -/
def Reply.error? : Reply → Option RuntimeError
  | .finished (.error cause) _ => some cause
  | _ => none

theorem Reply.error?_eq_some_iff {reply : Reply} {cause : RuntimeError} :
    reply.error? = some cause ↔ ∃ after, reply = .finished (.error cause) after := by
  constructor
  · intro eq
    unfold error? at eq
    split at eq
    · cases eq
      exact ⟨_, rfl⟩
    · cases eq
  · rintro ⟨after, rfl⟩
    rfl

namespace Session

/-- The run of the source ends with a return outside all functions. -/
def Entry.Returns (depth : Nat) (scope : ScopeId) (entry : Entry) : Prop :=
  ∃ value next,
    Block.eval (Object.apply depth) scope entry.program entry.before = .signal (.return value) next

instance (depth : Nat) (scope : ScopeId) (entry : Entry) :
    Decidable (entry.Returns depth scope) :=
  match ran : Block.eval (Object.apply depth) scope entry.program entry.before with
  | .signal (.return value) next => .isTrue ⟨value, next, ran⟩
  | .signal (.error _) _ | .value .. | .exhausted =>
      .isFalse fun ⟨_, _, returned⟩ => by cases ran.symm.trans returned

/-- The run of the source comes to an end, other than by a return. -/
def Entry.Steady (depth : Nat) (scope : ScopeId) (entry : Entry) : Prop :=
  entry.reply.Ends ∧ ¬ entry.Returns depth scope

instance (depth : Nat) (scope : ScopeId) (entry : Entry) : Decidable (entry.Steady depth scope) :=
  inferInstanceAs (Decidable (_ ∧ _))

variable {depth : Nat} {scope : ScopeId} {source : String} {before : State}

/-- The statements of a source that is read in a clean state end with its value, or with
the error that is its value. -/
theorem Entry.Steady.cases (clean : before.Clean)
    (read : (Draft.ofSource source).diagnostics = [])
    (steady : (Entry.mk source before (run depth scope source before)).Steady depth scope) :
    (∃ value next, run depth scope source before = .finished value next ∧ value.Clean ∧
      next.Clean ∧
      Block.eval (Object.apply depth) scope (Draft.ofSource source).statements before =
        .value value next) ∨
    ∃ cause next, run depth scope source before = .finished (.error cause) next ∧
      Block.eval (Object.apply depth) scope (Draft.ofSource source).statements before =
        .signal (.error cause) next := by
  have evaluated : run depth scope source before =
      evaluate depth scope (Draft.ofSource source).statements before :=
    run_of_clean (List.isEmpty_iff.mpr read)
  rcases steady with ⟨ends, steady⟩
  cases ran : (Draft.ofSource source).statements.eval depth scope before with
  | none => exact absurd (by rw [evaluated, evaluate, ran]) ends
  | some finished =>
    rcases finished with ⟨value, next⟩
    have reply : run depth scope source before = .finished value next := by
      rw [evaluated, evaluate, ran]
    rcases Program.cases_of_eval_of_clean clean ran with ⟨done, object⟩ | returned | raised
    · exact .inl ⟨value, next, reply, object, (Program.clean_of_eval clean ran).1, done⟩
    · exact absurd ⟨value, next, returned⟩ steady
    · rcases raised with ⟨cause, raised, rfl⟩
      exact .inr ⟨cause, next, reply, raised⟩

/-- What a run writes, source by source. -/
def writtenBy (entries : List Entry) : String :=
  String.join (entries.map Entry.written)

theorem writtenBy_cons (entry : Entry) (rest : List Entry) :
    writtenBy (entry :: rest) = entry.written ++ writtenBy rest := by
  rw [writtenBy, List.map_cons, String.join_cons, writtenBy]

/-- The statements of all sources, evaluated together, pass through the entries of the
session that go on and have no error. -/
theorem evalFrom_of_history {sources : List String} {front back : List Entry}
    (clean : before.Clean) (read : ∀ source ∈ sources, (Draft.ofSource source).diagnostics = [])
    (eq : history depth scope before sources = front ++ back)
    (steady : ∀ entry ∈ front, entry.Steady depth scope)
    (succeed : ∀ entry ∈ front, entry.reply.error? = none) (last : Object) :
    ∃ rest result next, (∀ source ∈ rest, (Draft.ofSource source).diagnostics = []) ∧
      back = history depth scope next rest ∧ next.Clean ∧
      next.output = before.output ++ writtenBy front ∧
      Block.evalFrom (Object.apply depth) scope last (Program.ofSources sources) before =
        Block.evalFrom (Object.apply depth) scope result (Program.ofSources rest) next := by
  induction front generalizing sources before last with
  | nil => exact ⟨sources, last, before, read, eq.symm, clean, String.append_empty.symm, rfl⟩
  | cons entry front inductionHypothesis =>
    rcases of_history_eq_cons eq with ⟨source, sources, rfl, rfl, following⟩
    rw [List.forall_mem_cons] at read steady succeed
    have output := (Entry.mk source before (run depth scope source before)).output_after rfl
    rcases steady.1.cases clean read.1 with ⟨value, middle, reply, -, kept, ran⟩ |
      ⟨cause, middle, reply, -⟩
    · rw [Entry.after, reply, Reply.after] at output
      rw [reply, Reply.after] at following
      -- A source without statements hands on the value of the one before it.
      rcases Block.evalFrom_of_eval_eq_value ran last with ⟨carried, ran⟩
      rcases inductionHypothesis kept read.2 following.symm steady.2 succeed.2 carried with
        ⟨rest, result, next, read, eq, kept, written, ends⟩
      refine ⟨rest, result, next, read, eq, kept, ?_, ?_⟩
      · rw [written, output, writtenBy_cons, reply, String.append_assoc]
      · rw [Program.ofSources, List.flatMap_cons, Block.evalFrom_append, Action.bind_apply, ran]
        exact ends
    · rw [Reply.error?_eq_some_iff.mpr ⟨middle, reply⟩] at succeed
      cases succeed.1

/-- Together the sources have a value that is no error if each of them has. -/
theorem eval_ofSources {sources : List String} (clean : before.Clean)
    (read : ∀ source ∈ sources, (Draft.ofSource source).diagnostics = [])
    (steady : ∀ entry ∈ history depth scope before sources, entry.Steady depth scope)
    (succeed : ∀ entry ∈ history depth scope before sources, entry.reply.error? = none) :
    ∃ value next, (Program.ofSources sources).eval depth scope before = some (value, next) ∧
      value.isError = false ∧
      next.output = before.output ++ writtenBy (history depth scope before sources) := by
  rcases evalFrom_of_history clean read (List.append_nil _).symm steady succeed .null with
    ⟨rest, value, next, -, eq, -, output, evaluated⟩
  cases rest with
  | cons => cases eq
  | nil =>
    have ran : Block.eval (Object.apply depth) scope (Program.ofSources sources) before =
        .value value next := evaluated
    have object := Block.clean_of_eval clean ran
    exact ⟨value, next, Program.eval_of_clean ran object, object.isError_eq_false, output⟩

/-- Together the sources have the value of the first of them that has an error. -/
theorem eval_ofSources_of_error {sources : List String} (clean : before.Clean)
    (read : ∀ source ∈ sources, (Draft.ofSource source).diagnostics = [])
    (steady : ∀ entry ∈ history depth scope before sources, entry.Steady depth scope)
    {front back : List Entry} {entry : Entry}
    (eq : history depth scope before sources = front ++ entry :: back)
    (succeed : ∀ other ∈ front, other.reply.error? = none) {cause : RuntimeError}
    (failed : entry.reply.error? = some cause) :
    ∃ next, (Program.ofSources sources).eval depth scope before = some (.error cause, next) ∧
      next.output = before.output ++ writtenBy (front ++ [entry]) := by
  rw [eq] at steady
  have frontSteady := fun other member => steady other (List.mem_append_left _ member)
  rcases evalFrom_of_history clean read eq frontSteady succeed .null with
    ⟨rest, last, middle, read, following, kept, output, evaluated⟩
  rcases of_history_eq_cons following.symm with ⟨source, rest, rfl, rfl, -⟩
  rw [List.forall_mem_cons] at read
  have added := (Entry.mk source middle (run depth scope source middle)).output_after rfl
  have stops := steady _ (List.mem_append_right _ List.mem_cons_self)
  rcases Reply.error?_eq_some_iff.mp failed with ⟨next, reply⟩
  rcases stops.cases kept read.1 with ⟨value, _, finished, object, -⟩ |
    ⟨_, _, finished, raised⟩
  · cases reply.symm.trans finished
    cases object
  · cases reply.symm.trans finished
    rw [Entry.after, reply, Reply.after] at added
    refine ⟨next, ?_, ?_⟩
    · rw [Program.eval, Block.eval, evaluated, Program.ofSources, List.flatMap_cons,
        Block.evalFrom_append, Action.bind_apply, Block.evalFrom_of_eval_eq_signal raised]
    · rw [added, output, writtenBy, writtenBy, List.map_append, String.join_append]
      simp only [List.map_cons, List.map_nil, String.join_cons, String.join_nil,
        String.append_empty, String.append_assoc]

end Session

namespace CommandLine

open Session (history writtenBy)

/-! ## Scripts of closed lines -/

theorem clean_start : start.Clean :=
  State.clean_empty.openScope none (List.forall_mem_nil _)

theorem utf8_join (sources : List String) :
    utf8 (String.join sources) = (sources.map utf8).flatten := by
  induction sources with
  | nil => rfl
  | cons source rest inductionHypothesis =>
    rw [List.map_cons, List.flatten_cons, ← inductionHypothesis, String.join_cons]
    simp only [utf8, String.toUTF8_eq_toByteArray, String.toByteArray_append,
      ByteArray.data_append, Array.toList_append]

/-- A file whose lines are texts is the text that these form together. -/
theorem fromUTF8?_of_lines {content : ByteArray} {sources : List String}
    (lines : Lines content.data.toList (sources.map utf8)) :
    String.fromUTF8? content = some (String.join sources) := by
  have bytes : utf8 (String.join sources) = content.data.toList := by
    rw [utf8_join, ← flatten_splitLines content.data.toList, splitLines_eq_iff.mpr lines]
  have decoded := fromUTF8?_eq_some_iff.mpr bytes
  rwa [Array.toArray_toList] at decoded

/-- A script that can be read shows its value only if that is an error. -/
theorem script_of_eval {depth : Nat} {content : ByteArray} {source : String} {program : Program}
    {value : Object} {next : State} (decoded : String.fromUTF8? content = some source)
    (read : Draft.ofSource source = ⟨program, []⟩)
    (finished : program.eval depth 0 start = some (value, next)) :
    script depth content =
      if value.isError then ⟨65, next.output ++ value.inspect ++ "\n", ""⟩
      else ⟨0, next.output, ""⟩ := by
  have reply : Session.run depth 0 source start = .finished value next := by
    rw [Session.run_of_clean (by rw [read]; rfl), read, Session.evaluate, finished]
  rw [script, decoded]
  simp only [reply, dataError]

/-- A script and a prompt agree on lines that are closed, as long as none returns. The
script writes what the lines write, and no values. It stops behind the first line whose
value is an error, and shows that error. -/
theorem run_script (depth : Nat) (files : String → Except FileError ByteArray) {path : String}
    {content : ByteArray} {sources : List String} (found : files path = .ok content)
    (lines : Lines content.data.toList (sources.map utf8))
    (closed : ∀ source ∈ sources, Draft.Closed source)
    (steady : ∀ entry ∈ history depth 0 start sources, entry.Steady depth 0) :
    run depth files content.data.toList [] =
      ⟨0, answered (history depth 0 start sources) ++ ">> ", ""⟩ ∧
    ((∀ entry ∈ history depth 0 start sources, entry.reply.error? = none) →
      ∀ input, run depth files input [path] =
        ⟨0, writtenBy (history depth 0 start sources), ""⟩) ∧
    (∀ front entry back cause, history depth 0 start sources = front ++ entry :: back →
      (∀ other ∈ front, other.reply.error? = none) → entry.reply.error? = some cause →
      ∀ input, run depth files input [path] =
        ⟨65, writtenBy (front ++ [entry]) ++ (Object.error cause).inspect ++ "\n", ""⟩) := by
  have decoded := fromUTF8?_of_lines lines
  have read := Draft.ofSource_join closed
  have clean := fun source member => (closed source member).clean
  have scripted : ∀ input, run depth files input [path] = script depth content := by
    intro input
    rw [run, Command.ofArguments]
    simp only [found, scriptFile]
  refine ⟨?_, ?_, ?_⟩
  · exact run_of_lines depth files (fun entry member => (steady entry member).1) lines
  · intro succeed input
    rcases Session.eval_ofSources clean_start clean steady succeed with
      ⟨value, next, finished, noError, output⟩
    rw [scripted, script_of_eval decoded read finished, noError, output]
    rfl
  · intro front entry back cause eq succeed failed input
    rcases Session.eval_ofSources_of_error clean_start clean steady eq succeed failed with
      ⟨next, finished, output⟩
    rw [scripted, script_of_eval decoded read finished, output]
    rfl

/-- A function, two calls of it, a call that fails, and output behind that. -/
def sampleScript : List String :=
  ["let f = fn(x) \x7b puts(x); x * 2 \x7d;\n", "f(1); f(2);\n", "f(true);\n", "puts(9);\n"]

/-- The script is run without its last two lines, and with them. -/
theorem run_script_of_sampleScript :
    run 1 (fun _ => .ok (String.join (sampleScript.take 2)).toUTF8) [] ["script"] =
      ⟨0, "1\n2\n", ""⟩ ∧
    run 1 (fun _ => .ok (String.join sampleScript).toUTF8) [] ["script"] =
      ⟨65, "1\n2\ntrue\nERROR: type mismatch: BOOLEAN * INTEGER\n", ""⟩ := by
  have closed : ∀ source ∈ sampleScript, Draft.Closed source := by decide +kernel
  have steady : ∀ entry ∈ history 1 0 start sampleScript, entry.Steady 1 0 := by decide +kernel
  constructor
  · have lines : Lines (String.join (sampleScript.take 2)).toUTF8.data.toList
        ((sampleScript.take 2).map utf8) := splitLines_eq_iff.mp (by decide +kernel)
    have closed : ∀ source ∈ sampleScript.take 2, Draft.Closed source := fun source member =>
      closed source (List.mem_of_mem_take member)
    have steady : ∀ entry ∈ history 1 0 start (sampleScript.take 2), entry.Steady 1 0 := by
      decide +kernel
    refine ((run_script 1 (fun _ => .ok _) rfl lines closed steady).2.1 ?succeed []).trans ?written
    case succeed => decide +kernel
    case written => exact congrArg (Report.mk 0 · "") (by decide +kernel)
  · have lines : Lines (String.join sampleScript).toUTF8.data.toList (sampleScript.map utf8) :=
      splitLines_eq_iff.mp (by decide +kernel)
    refine ((run_script 1 (fun _ => .ok _) rfl lines closed steady).2.2 [_, _] _ _
      (.typeMismatch .boolean .multiply .integer) rfl ?succeed ?failed []).trans ?written
    case succeed => decide +kernel
    case failed => decide +kernel
    case written => exact congrArg (Report.mk 65 · "") (by decide +kernel)

end CommandLine

end Monkey
