import ParenCall.CommandLine

/-!
# The command

Reads files and the standard input, and writes what the command line decides.
-/

namespace ParenCall

/-- Writes a transcript to the standard streams. -/
def writeTranscript (transcript : Transcript) : IO Unit := do
  let output ← IO.getStdout
  output.putStr transcript.output
  output.flush
  (← IO.getStderr).putStr transcript.errors

/-- Reads bytes up to and including the next line feed. -/
partial def readLine (input : IO.FS.Stream) (line : Array UInt8) :
    IO (List UInt8) := do
  let bytes ← input.read 1
  match bytes.toList with
  | [] => return line.toList
  | byte :: _ =>
      if byte = lineFeed then return (line.push byte).toList
      else readLine input (line.push byte)

/-- Holds a prompt session on the standard streams.  A line that has been read
goes through a round of the session, which shows its prompt before the line is
there and everything else after it. -/
partial def holdSession (options : Options) (stage : Stage)
    (session : PromptSession) : IO Unit := do
  let asked := session.ask
  writeTranscript asked.written
  let line ← readLine (← IO.getStdin) #[]
  match (asked.receive line).respond options stage with
  | .ends written => writeTranscript written
  | .goesOn next =>
      writeTranscript next.written
      holdSession options stage (next.receive [])

/-- The content of a file, if it can be read. -/
def readContent (path : String) : IO (Option ByteArray) := do
  try
    return some (← IO.FS.readBinFile path)
  catch _ =>
    return none

/-- Runs an invocation and returns its exit code. -/
def execute (invocation : Invocation) : IO UInt32 := do
  match invocation.task, invocation.stage with
  | .repl, .ok stage =>
      holdSession invocation.options stage (.start [])
      return 0
  | .file path, .ok _ =>
      let content ← readContent path
      let outcome := invocation.run (fun _ => content) []
      writeTranscript outcome.transcript
      return outcome.code
  | _, _ =>
      let outcome := invocation.run (fun _ => none) []
      writeTranscript outcome.transcript
      return outcome.code

end ParenCall

def main (arguments : List String) : IO UInt32 :=
  match ParenCall.Invocation.parse arguments with
  | some invocation => ParenCall.execute invocation
  | none => do
      (← IO.getStderr).putStrLn
        "usage: lispc [--keep-var] [--emit STAGE] (file PATH | eval SOURCE | repl)"
      return 1
