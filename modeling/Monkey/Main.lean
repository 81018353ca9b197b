import Monkey.CommandLine

/-!
# The program

Connects the command line to the standard streams and to files.
-/

namespace Monkey.CommandLine

/-- Reads a line byte by byte, so that nothing behind its line feed is taken.
It is empty at the end of the input. -/
partial def readLine (stdin : IO.FS.Stream) (line : Array UInt8 := #[]) :
    IO (List UInt8) := do
  let bytes ← stdin.read 1
  match bytes.data.toList with
  | [] => return line.toList
  | byte :: _ =>
      if byte = 10 then return (line.push byte).toList
      else readLine stdin (line.push byte)

/-- Writes a report and ends with its status. -/
def finish (report : Report) : IO UInt32 := do
  (← IO.getStdout).putStr report.stdout
  (← IO.getStderr).putStr report.stderr
  return report.status.toUInt32

/-- Answers lines until the input ends. -/
partial def interact (state : State) : IO UInt32 := do
  let stdout ← IO.getStdout
  stdout.putStr promptText
  stdout.flush
  match ← readLine (← IO.getStdin) with
  | [] => return 0
  | line =>
      match answer Session.callDepth 0 line state with
      | .text text state =>
          stdout.putStr text
          interact state
      | .stop reason => finish (fatal reason)

/-- Reads the bytes of a file. -/
def readFile (path : String) : IO (Except FileError ByteArray) := do
  try
    return .ok (← IO.FS.readBinFile path)
  catch
    | .noFileOrDirectory .. => return .error .notFound
    | .permissionDenied .. => return .error .permissionDenied
    | .inappropriateType .. => return .error .isDirectory
    | error => return .error (.other (toString error))

end Monkey.CommandLine

open Monkey Monkey.CommandLine in
/-- Runs the program with the given arguments. -/
def main (arguments : List String) : IO UInt32 := do
  match Command.ofArguments arguments with
  | .prompt => interact start
  | .script path => finish (scriptFile Session.callDepth (← readFile path))
  | .misused => finish usage
