import Monkey.Object.Printer
import Monkey.Session

/-!
# The command line

Without arguments the program is a prompt: it answers line by line until its
input ends. With one argument it runs the script in the file of that name as
a single source.

Everything here is a function of the arguments, the input and the contents of
files. The answer to a line does not depend on the lines behind it, so it can
be given before they are typed.
-/

namespace Monkey.CommandLine

/-- What a run of the program leaves behind. -/
structure Report where
  status : UInt8
  stdout : String
  stderr : String

/-- The status of a script with diagnostics or an error. -/
def dataError : UInt8 := 65

/-- Ends the program because it cannot go on. -/
def fatal (reason : String) : Report :=
  ⟨1, "", "monkey: " ++ reason ++ "\n"⟩

/-- Puts text in front of the standard output. -/
def Report.after (text : String) (report : Report) : Report :=
  { report with stdout := text ++ report.stdout }

/-- What is wrong with input that is not UTF-8. -/
def invalidText : String := "stream did not contain valid UTF-8"

/-- What is wrong when calls are nested too deeply. -/
def nestedTooDeeply : String := "calls are nested too deeply"

/-- Each diagnostic on a line of its own, behind a tab. -/
def diagnosticLines (diagnostics : List Diagnostic) : String :=
  diagnostics.foldl (fun text diagnostic => text ++ "\t" ++ diagnostic.message ++ "\n") ""

/-! ## The prompt -/

/-- Asks for a line. -/
def promptText : String := ">> "

/-- Whether the value of a program is passed over in silence. Programs that
are empty or end in a binding show their value only if it is an error. -/
def isSilent (program : Program) (value : Object) : Bool :=
  match program.getLast? with
  | none | some (.bind ..) => !value.isError
  | some _ => false

/-- The line that shows the value of a program. -/
def echo (program : Program) (value : Object) : String :=
  if isSilent program value then "" else value.inspect ++ "\n"

/-- How a line is answered. -/
inductive Answer
  /-- The text that is written, and the state for the next line. -/
  | text (text : String) (state : State)
  /-- The program ends for the given reason. -/
  | stop (reason : String)

/-- Answers a line in the given scope. -/
def answer (depth : Nat) (scope : ScopeId) (line : List UInt8) (state : State) : Answer :=
  match String.fromUTF8? ⟨line.toArray⟩ with
  | none => .stop invalidText
  | some source =>
      let draft := Draft.ofSource source
      if draft.isClean then
        match Session.evaluate depth scope draft.statements (Session.clearOutput state) with
        | .rejected diagnostics => .text (diagnosticLines diagnostics) state
        | .finished value state => .text (state.output ++ echo draft.statements value) state
        | .exhausted => .stop nestedTooDeeply
      else .text (diagnosticLines draft.diagnostics) state

/-- The lines of an input, each with its line feed. The last may lack it. -/
def splitLines : List UInt8 → List (List UInt8)
  | [] => []
  | byte :: rest =>
      if byte = 10 then [byte] :: splitLines rest
      else
        match splitLines rest with
        | [] => [[byte]]
        | line :: lines => (byte :: line) :: lines

/-- Nothing is lost when an input is split into lines. -/
theorem flatten_splitLines (input : List UInt8) : (splitLines input).flatten = input := by
  induction input with
  | nil => rfl
  | cons byte rest inductionHypothesis =>
      unfold splitLines
      split
      · simp [inductionHypothesis]
      · split
        · next empty =>
          rw [empty] at inductionHypothesis
          simp [← inductionHypothesis]
        · next line lines split_eq =>
          rw [split_eq] at inductionHypothesis
          simp [← inductionHypothesis]

/-- The state in which a prompt or a script starts: one empty scope, which has
the number zero. -/
def start : State := State.empty.openScope none []

/-- Answers lines one after the other, each behind a prompt. -/
def transcript (depth : Nat) (state : State) : List (List UInt8) → Report
  | [] => ⟨0, promptText, ""⟩
  | line :: rest =>
      match answer depth 0 line state with
      | .text text state => (transcript depth state rest).after (promptText ++ text)
      | .stop reason => (fatal reason).after promptText

/-! ## Scripts -/

/-- Why a file cannot be read. -/
inductive FileError
  | notFound | permissionDenied | isDirectory
  | other (reason : String)

/-- The wording of a file error. -/
def FileError.message : FileError → String
  | .notFound => "No such file or directory (os error 2)"
  | .permissionDenied => "Permission denied (os error 13)"
  | .isDirectory => "Is a directory (os error 21)"
  | .other reason => reason

/-- Runs a script, given the bytes of its file. -/
def script (depth : Nat) (content : ByteArray) : Report :=
  match String.fromUTF8? content with
  | none => fatal invalidText
  | some source =>
      match Session.run depth 0 source start with
      | .rejected diagnostics => ⟨dataError, diagnosticLines diagnostics, ""⟩
      | .finished value state =>
          if value.isError then ⟨dataError, state.output ++ value.inspect ++ "\n", ""⟩
          else ⟨0, state.output, ""⟩
      | .exhausted => fatal nestedTooDeeply

/-- Runs the script in a file that could be read or not. -/
def scriptFile (depth : Nat) : Except FileError ByteArray → Report
  | .ok content => script depth content
  | .error error => fatal error.message

/-! ## Arguments -/

/-- What the arguments ask for. -/
inductive Command
  | prompt
  | script (path : String)
  | misused

/-- Reads the arguments. -/
def Command.ofArguments : List String → Command
  | [] => .prompt
  | [path] => .script path
  | _ => .misused

/-- The answer to arguments that ask for nothing. -/
def usage : Report := fatal "usage: monkey [script]"

/-- A whole run of the program, given what each file holds and the standard
input. -/
def run (depth : Nat) (files : String → Except FileError ByteArray) (input : List UInt8)
    (arguments : List String) : Report :=
  match Command.ofArguments arguments with
  | .prompt => transcript depth start (splitLines input)
  | .script path => scriptFile depth (files path)
  | .misused => usage

end Monkey.CommandLine
