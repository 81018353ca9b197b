import Monkey.CommandLine
import Monkey.Proofs.Session.History

/-!
# The transcript of a prompt

A prompt is a session that is given the lines of the standard input. The session
keeps what was written, and the prompt forgets it before each line, so that their
states differ in the output only.
-/

namespace Monkey

/-! ## Bytes and lines -/

namespace CommandLine

/-- The bytes of a text. -/
def utf8 (text : String) : List UInt8 :=
  text.toUTF8.data.toList

theorem fromUTF8?_eq_some_iff {bytes : List UInt8} {text : String} :
    String.fromUTF8? ⟨bytes.toArray⟩ = some text ↔ utf8 text = bytes := by
  unfold String.fromUTF8?
  split
  · next valid =>
    rw [Option.some.injEq]
    constructor
    · rintro rfl
      rfl
    · rintro rfl
      exact String.toByteArray_inj.mp rfl
  · next invalid =>
    refine ⟨nofun, ?_⟩
    rintro rfl
    exact absurd text.isValidUTF8 invalid

/-- The lines of an input. Each ends with its line feed, but for the last, which may
lack it, and no other line feed is in any of them. -/
inductive Lines : List UInt8 → List (List UInt8) → Prop
  | empty : Lines [] []
  | last {line : List UInt8} (ne_nil : line ≠ []) (single : 10 ∉ line) : Lines line [line]
  | more {line input : List UInt8} {lines : List (List UInt8)} (single : 10 ∉ line)
      (following : Lines input lines) : Lines (line ++ 10 :: input) ((line ++ [10]) :: lines)

theorem splitLines_append_cons {line : List UInt8} (single : 10 ∉ line) (input : List UInt8) :
    splitLines (line ++ 10 :: input) = (line ++ [10]) :: splitLines input := by
  induction line with
  | nil => rfl
  | cons byte line inductionHypothesis =>
    rw [List.mem_cons, not_or] at single
    rw [List.cons_append, splitLines, if_neg (Ne.symm single.1), inductionHypothesis single.2]
    rfl

theorem splitLines_of_notMem {line : List UInt8} (single : 10 ∉ line) (ne_nil : line ≠ []) :
    splitLines line = [line] := by
  induction line with
  | nil => exact absurd rfl ne_nil
  | cons byte line inductionHypothesis =>
    rw [List.mem_cons, not_or] at single
    rw [splitLines, if_neg (Ne.symm single.1)]
    by_cases ends : line = []
    · subst ends
      rfl
    · rw [inductionHypothesis single.2 ends]

theorem lines_splitLines (input : List UInt8) : Lines input (splitLines input) := by
  induction input with
  | nil => exact .empty
  | cons byte input inductionHypothesis =>
    unfold splitLines
    split
    · next feed =>
      subst feed
      exact (.more List.not_mem_nil inductionHypothesis :
        Lines ([] ++ 10 :: input) (([] ++ [10]) :: splitLines input))
    · next other =>
      have extended {line : List UInt8} (single : 10 ∉ line) : 10 ∉ byte :: line := by
        rw [List.mem_cons, not_or]
        exact ⟨Ne.symm other, single⟩
      split
      · next split_eq =>
        rw [split_eq] at inductionHypothesis
        cases inductionHypothesis
        exact .last (List.cons_ne_nil _ _) (extended List.not_mem_nil)
      · next line lines split_eq =>
        rw [split_eq] at inductionHypothesis
        cases inductionHypothesis with
        | last _ single => exact .last (List.cons_ne_nil _ _) (extended single)
        | more single following => exact .more (extended single) following

theorem splitLines_eq_iff {input : List UInt8} {lines : List (List UInt8)} :
    splitLines input = lines ↔ Lines input lines := by
  constructor
  · rintro rfl
    exact lines_splitLines input
  · intro derived
    induction derived with
    | empty => rfl
    | last ne_nil single => exact splitLines_of_notMem single ne_nil
    | more single _ inductionHypothesis =>
      rw [splitLines_append_cons single, inductionHypothesis]

end CommandLine

/-! ## What a line is answered -/

/-- The program is empty or ends in a binding. -/
def Program.endsQuietly (program : Program) : Bool :=
  match program.reverse with
  | [] | .bind .. :: _ => true
  | _ => false

/-- What a prompt shows of a source: the diagnostics, each on a line of its own, or
what the run wrote and then the value. A value that is no error is not shown if the
program ends quietly. -/
def Session.Entry.shown (entry : Entry) : String :=
  match entry.reply with
  | .rejected diagnostics =>
      String.join (diagnostics.map fun diagnostic => "\t" ++ diagnostic.message ++ "\n")
  | .finished value _ =>
      entry.written ++
        if entry.program.endsQuietly ∧ ¬ value.isError then "" else value.inspect ++ "\n"
  | .exhausted => ""

namespace CommandLine

open Session (clearOutput history)

theorem isSilent_iff {program : Program} {value : Object} :
    isSilent program value = true ↔ program.endsQuietly ∧ ¬ value.isError := by
  unfold isSilent Program.endsQuietly
  rw [List.getLast?_eq_head?_reverse]
  cases program.reverse with
  | nil => simp
  | cons statement front => cases statement <;> simp

theorem echo_eq (program : Program) (value : Object) :
    echo program value =
      if program.endsQuietly ∧ ¬ value.isError then "" else value.inspect ++ "\n" :=
  if_congr isSilent_iff rfl rfl

theorem diagnosticLines_eq (diagnostics : List Diagnostic) :
    diagnosticLines diagnostics =
      String.join (diagnostics.map fun diagnostic => "\t" ++ diagnostic.message ++ "\n") := by
  suffices behind : ∀ text : String,
      diagnostics.foldl (fun text diagnostic => text ++ "\t" ++ diagnostic.message ++ "\n") text =
        text ++ String.join
          (diagnostics.map fun diagnostic => "\t" ++ diagnostic.message ++ "\n") by
    rw [diagnosticLines, behind, String.empty_append]
  induction diagnostics with
  | nil => exact fun text => String.append_empty.symm
  | cons diagnostic rest inductionHypothesis =>
    intro text
    rw [List.foldl_cons, inductionHypothesis, List.map_cons, String.join_cons]
    simp only [String.append_assoc]

/-- The answer to a source, given the state before and what a session replies that has
forgotten its output. -/
def Answer.ofReply (source : String) (before : State) : Reply → Answer
  | .rejected diagnostics => .text (diagnosticLines diagnostics) before
  | .finished value after =>
      .text (after.output ++ echo (Draft.ofSource source).statements value) after
  | .exhausted => .stop nestedTooDeeply

/-- A line that is a text is run with all output forgotten. -/
theorem answer_utf8 (depth : Nat) (scope : ScopeId) (source : String) (state : State) :
    answer depth scope (utf8 source) state =
      .ofReply source state (Session.run depth scope source (clearOutput state)) := by
  unfold answer
  rw [fromUTF8?_eq_some_iff.mpr rfl]
  dsimp only
  split
  · next clean =>
    rw [Session.run_of_clean clean]
    cases Session.evaluate depth scope (Draft.ofSource source).statements (clearOutput state) <;>
      rfl
  · next dirty =>
    rw [Session.run_of_not_clean (Bool.eq_false_iff.mpr dirty)]
    rfl

/-- A prompt answers a line with what is shown of the source. The states of the
prompt and of the session keep being the same but for their output. -/
theorem answer_of_reply {depth : Nat} {scope : ScopeId} {entry : Session.Entry}
    (replies : entry.reply = Session.run depth scope entry.source entry.before)
    (ends : entry.reply.Ends) {state : State}
    (same : clearOutput state = clearOutput entry.before) :
    ∃ next, answer depth scope (utf8 entry.source) state = .text entry.shown next ∧
      clearOutput next = clearOutput entry.after := by
  have prefaced := entry.reply_eq_prefaced replies
  rw [answer_utf8, same]
  cases ran : Session.run depth scope entry.source (clearOutput entry.before) with
  | rejected diagnostics =>
    have reply : entry.reply = .rejected diagnostics := by rw [prefaced, ran, Reply.prefaced]
    have after : entry.after = entry.before := by rw [Session.Entry.after, reply, Reply.after]
    refine ⟨state, ?_, same.trans (congrArg clearOutput after.symm)⟩
    simp only [Answer.ofReply, Session.Entry.shown, reply, diagnosticLines_eq]
  | finished value next =>
    have reply : entry.reply = .finished value (next.prefaced entry.before.output) := by
      rw [prefaced, ran, Reply.prefaced]
    have after : entry.after = next.prefaced entry.before.output := by
      rw [Session.Entry.after, reply, Reply.after]
    have written : entry.written = next.output :=
      Session.Entry.written_of_output (by rw [after, State.prefaced])
    refine ⟨next, ?_, by rw [after, Session.clearOutput_prefaced]⟩
    have shown : entry.shown = next.output ++ echo entry.program value := by
      simp only [Session.Entry.shown, reply, written, echo_eq]
    rw [Answer.ofReply, shown, Session.Entry.program]
  | exhausted => exact absurd (by rw [prefaced, ran, Reply.prefaced]) ends

/-! ## Line by line -/

theorem Report.after_after (front back : String) (report : Report) :
    (report.after back).after front = report.after (front ++ back) := by
  simp only [Report.after, String.append_assoc]

/-- What a prompt prints for sources that it has answered. -/
def answered (entries : List Session.Entry) : String :=
  String.join (entries.map fun entry => ">> " ++ entry.shown)

theorem answered_cons (entry : Session.Entry) (rest : List Session.Entry) :
    answered (entry :: rest) = ">> " ++ entry.shown ++ answered rest := by
  rw [answered, List.map_cons, String.join_cons, answered]

/-- The transcript of lines that are answered goes on with that of the lines behind. -/
theorem transcript_append {depth : Nat} {sources : List String} {before : State}
    (ends : ∀ entry ∈ history depth 0 before sources, entry.reply.Ends)
    (rest : List (List UInt8)) {state : State} (same : clearOutput state = clearOutput before) :
    ∃ next, transcript depth state (sources.map utf8 ++ rest) =
      (transcript depth next rest).after (answered (history depth 0 before sources)) := by
  -- The prompt and the session never agree on their output, so it is left out of the invariant.
  induction sources generalizing before state with
  | nil => exact ⟨state, by simp [history, answered, Report.after]⟩
  | cons source sources inductionHypothesis =>
    rcases answer_of_reply rfl (ends _ List.mem_cons_self) same with ⟨middle, text, kept⟩
    rcases inductionHypothesis (fun entry later => ends entry (List.mem_cons_of_mem _ later))
      kept with ⟨next, following⟩
    refine ⟨next, ?_⟩
    rw [List.map_cons, List.cons_append, transcript, text]
    simp only [following, Report.after_after]
    rw [history, answered_cons]
    rfl

/-- A prompt that is given texts as lines answers them, asks once more, and ends. -/
theorem run_of_lines (depth : Nat) (files : String → Except FileError ByteArray)
    {sources : List String}
    (ends : ∀ entry ∈ history depth 0 start sources, entry.reply.Ends) {input : List UInt8}
    (lines : Lines input (sources.map utf8)) :
    run depth files input [] = ⟨0, answered (history depth 0 start sources) ++ ">> ", ""⟩ := by
  rcases transcript_append ends [] rfl with ⟨next, eq⟩
  rw [List.append_nil] at eq
  rw [run, Command.ofArguments]
  simp only [splitLines_eq_iff.mpr lines, eq]
  rfl

/-- A prompt that is given texts as lines shows the session with these texts. A text with
diagnostics leaves the state as it is, and any other is run in the state that the ones
before it left, where its output is added to theirs. Behind the last line the prompt asks
once more, and then it ends, as it does at a line that is no text. -/
theorem run_prompt (depth : Nat) (files : String → Except FileError ByteArray)
    {sources : List String}
    (ends : ∀ entry ∈ history depth 0 start sources, entry.reply.Ends) :
    (∀ entry ∈ history depth 0 start sources,
      entry.after.output = entry.before.output ++ entry.written ∧
      ((Draft.ofSource entry.source).diagnostics ≠ [] →
        entry.reply = .rejected (Draft.ofSource entry.source).diagnostics ∧
          entry.after = entry.before)) ∧
    (∀ input, Lines input (sources.map utf8) →
      run depth files input [] =
        ⟨0, answered (history depth 0 start sources) ++ ">> ", ""⟩) ∧
    (∀ input bad rest, Lines input (sources.map utf8 ++ bad :: rest) →
      (∀ text, utf8 text ≠ bad) →
      run depth files input [] =
        ⟨1, answered (history depth 0 start sources) ++ ">> ",
          "monkey: stream did not contain valid UTF-8\n"⟩) := by
  refine ⟨?_, ?_, ?_⟩
  · intro entry member
    have replies := Session.reply_of_mem_history member
    exact ⟨entry.output_after replies, entry.rejected replies⟩
  · exact fun input lines => run_of_lines depth files ends lines
  · intro input bad rest lines invalid
    rcases transcript_append ends (bad :: rest) rfl with ⟨next, eq⟩
    have stops : answer depth 0 bad next = .stop invalidText := by
      have undecoded : String.fromUTF8? ⟨bad.toArray⟩ = none :=
        Option.eq_none_iff_forall_ne_some.mpr fun text decoded =>
          invalid text (fromUTF8?_eq_some_iff.mp decoded)
      rw [answer, undecoded]
    rw [run, Command.ofArguments]
    simp only [splitLines_eq_iff.mpr lines, eq, transcript, stops]
    rfl

/-- A binding, a text that cannot be read, a call, an error at a binding, and a return. -/
def sampleSession : List String :=
  ["let twice = fn(x) \x7b puts(x); x * 2 \x7d;\n", "1 + ;\n", "twice(2);\n", "let y = -true;\n",
    "return twice(3); puts(y);"]

/-- A line that is no text, and one more. -/
def brokenLines : List (List UInt8) :=
  [[0xff, 10], [0x31]]

/-- The session is typed up to its end, and up to a line that is no text. -/
theorem run_prompt_of_sampleSession :
    (∀ entry ∈ history 1 0 start sampleSession, entry.reply.Ends) ∧
    run 1 (fun _ => .error .notFound) (sampleSession.map utf8).flatten [] =
      ⟨0, answered (history 1 0 start sampleSession) ++ ">> ", ""⟩ ∧
    run 1 (fun _ => .error .notFound) ((sampleSession.take 4).map utf8 ++ brokenLines).flatten [] =
      ⟨1, answered (history 1 0 start (sampleSession.take 4)) ++ ">> ",
        "monkey: stream did not contain valid UTF-8\n"⟩ ∧
    answered (history 1 0 start sampleSession) =
      ">> >> \tno prefix parse function for ; found\n" ++
        ">> 2\n4\n>> ERROR: unknown operator: -BOOLEAN\n>> 3\n6\n" := by
  have ends : ∀ entry ∈ history 1 0 start sampleSession, entry.reply.Ends := by decide +kernel
  have lines : Lines (sampleSession.map utf8).flatten (sampleSession.map utf8) :=
    splitLines_eq_iff.mp (by decide +kernel)
  have front : ∀ entry ∈ history 1 0 start (sampleSession.take 4), entry.reply.Ends := by
    decide +kernel
  have broken : Lines ((sampleSession.take 4).map utf8 ++ brokenLines).flatten
      ((sampleSession.take 4).map utf8 ++ brokenLines) := splitLines_eq_iff.mp (by decide +kernel)
  have undecoded : String.fromUTF8? ⟨[0xff, 10].toArray⟩ = none := by decide +kernel
  have invalid : ∀ text, utf8 text ≠ [0xff, 10] := fun text bytes =>
    Option.some_ne_none text ((fromUTF8?_eq_some_iff.mpr bytes).symm.trans undecoded)
  exact ⟨ends, (run_prompt 1 (fun _ => .error .notFound) ends).2.1 _ lines,
    (run_prompt 1 (fun _ => .error .notFound) front).2.2 _ _ _ broken invalid, by decide +kernel⟩

end CommandLine

end Monkey
