import ParenCall.Compilation

/-!
# Prompt sessions

A session reads its input line by line and compiles each line on its own.  A
line reaches up to and including the next line feed, or up to the end of the
input.  Before each line, and before it finds the end of the input, a session
writes a prompt; results go to the output and failures to the error output, and
neither ends the session.

A session goes round by round.  It has one buffer for the text of a line, which
it empties at the beginning of each round.
-/

namespace ParenCall

/-- What has been written to the output and to the error output. -/
@[ext]
structure Transcript where
  output : String := ""
  errors : String := ""
  deriving DecidableEq

/-- One transcript continued by another. -/
def Transcript.append (first second : Transcript) : Transcript where
  output := first.output ++ second.output
  errors := first.errors ++ second.errors

instance : Append Transcript := ⟨Transcript.append⟩

namespace Transcript

@[simp] theorem output_append (first second : Transcript) :
    (first ++ second).output = first.output ++ second.output :=
  rfl

@[simp] theorem errors_append (first second : Transcript) :
    (first ++ second).errors = first.errors ++ second.errors :=
  rfl

theorem append_assoc (first second third : Transcript) :
    first ++ second ++ third = first ++ (second ++ third) := by
  ext1 <;> simp [String.append_assoc]

theorem empty_append (transcript : Transcript) :
    ({} : Transcript) ++ transcript = transcript := by
  ext1 <;> simp

end Transcript

/-- The byte of a line feed. -/
def lineFeed : UInt8 := 0x0a

/-- The bytes after the first line feed. -/
def afterLine (bytes : List UInt8) : List UInt8 :=
  (bytes.dropWhile (· ≠ lineFeed)).tail

/-- The bytes up to and including the first line feed. -/
def firstLine (bytes : List UInt8) : List UInt8 :=
  bytes.takeWhile (· ≠ lineFeed) ++
    (bytes.dropWhile (· ≠ lineFeed)).take 1

theorem firstLine_append_afterLine (bytes : List UInt8) :
    firstLine bytes ++ afterLine bytes = bytes := by
  rw [firstLine, afterLine, List.append_assoc, ← List.drop_one,
    List.take_append_drop, List.takeWhile_append_dropWhile]

theorem length_afterLine_lt (byte : UInt8) (bytes : List UInt8) :
    (afterLine (byte :: bytes)).length < (byte :: bytes).length := by
  have bound : ((byte :: bytes).dropWhile (· ≠ lineFeed)).length ≤
      (byte :: bytes).length :=
    (List.dropWhile_suffix _).length_le
  rw [afterLine, List.length_tail]
  simp only [List.length_cons] at *
  omega

/-- Whether a character is a carriage return or a line feed. -/
def endsLine (character : Char) : Bool :=
  character = '\r' || character = '\n'

/-- A text without the carriage returns and line feeds at its end. -/
def trimLineEnd (text : String) : String :=
  String.ofList (text.toList.reverse.dropWhile endsLine).reverse

/-- A session between two rounds.  `input` are the bytes to come, `buffer` the
text of the line read last, and `written` what has been written so far. -/
structure PromptSession where
  input : List UInt8
  buffer : String
  written : Transcript

/-- How reading a line ends. -/
inductive LineRead
  /-- There was nothing to read. -/
  | endOfInput
  /-- The text of the line has been added to the buffer. -/
  | text
  /-- The bytes of the line are no UTF-8 text. -/
  | invalid
  deriving DecidableEq

namespace PromptSession

/-- What a session writes before it reads. -/
def prompt : Transcript where
  output := "> "

/-- What a session writes at the end of its input. -/
def farewell : Transcript where
  output := "\nExited lispc repl\n"

/-- What a session writes for a line that is no text. -/
def unreadable : Transcript where
  errors := "Failed read line: stream did not contain valid UTF-8\n"

/-- What a session writes for the text of a line. -/
def reply (options : Options) (stage : Stage) (text : String) : Transcript :=
  match render options stage (trimLineEnd text) with
  | .ok result => { output := result ++ "\n" }
  | .error error => { errors := "Failed compile: " ++ error.message ++ "\n" }

/-- The answer to one line. -/
def answer (options : Options) (stage : Stage) (line : List UInt8) :
    Transcript :=
  match String.fromUTF8? ⟨line.toArray⟩ with
  | none => unreadable
  | some text => reply options stage text

/-- A session that has not read anything. -/
def start (input : List UInt8) : PromptSession where
  input := input
  buffer := ""
  written := {}

/-- A session that has written more. -/
def write (session : PromptSession) (more : Transcript) : PromptSession :=
  { session with written := session.written ++ more }

/-- A session that is given the bytes of a line, when what it has written so
far has been shown. -/
def receive (session : PromptSession) (line : List UInt8) : PromptSession :=
  { session with
    input := line
    written := {} }

/-- Empties the buffer and writes a prompt. -/
def ask (session : PromptSession) : PromptSession :=
  { session with buffer := "" }.write prompt

/-- Takes the bytes of the next line and adds their text to the buffer.  Bytes
that are no text are taken as well, but leave the buffer as it is. -/
def readLine (session : PromptSession) : LineRead × PromptSession :=
  match session.input with
  | [] => (.endOfInput, session)
  | _ :: _ =>
      match String.fromUTF8? ⟨(firstLine session.input).toArray⟩ with
      | none => (.invalid, { session with input := afterLine session.input })
      | some text =>
          (.text,
            { session with
              input := afterLine session.input
              buffer := session.buffer ++ text })

/-- Where a round of a session leads. -/
inductive Round
  | ends (written : Transcript)
  | goesOn (session : PromptSession)

/-- What a session that has asked does about the next line. -/
def respond (options : Options) (stage : Stage) (session : PromptSession) :
    Round :=
  match session.readLine with
  | (.endOfInput, next) => .ends (next.write farewell).written
  | (.invalid, next) => .goesOn (next.write unreadable)
  | (.text, next) => .goesOn (next.write (reply options stage next.buffer))

/-- One round: a prompt, and the answer to the line after it. -/
def round (options : Options) (stage : Stage) (session : PromptSession) :
    Round :=
  session.ask.respond options stage

theorem length_input_readLine_lt {session next : PromptSession}
    {read : LineRead} (reads : session.readLine = (read, next))
    (inside : read ≠ .endOfInput) :
    next.input.length < session.input.length := by
  unfold readLine at reads
  split at reads
  · cases reads
    exact absurd rfl inside
  · rename_i byte bytes inputEq
    have shorter := length_afterLine_lt byte bytes
    rw [← inputEq] at shorter
    split at reads <;> cases reads <;> exact shorter

/-- A session goes on only after it has taken a byte. -/
theorem length_input_round_lt {options : Options} {stage : Stage}
    {session next : PromptSession}
    (goesOn : session.round options stage = .goesOn next) :
    next.input.length < session.input.length := by
  unfold round respond at goesOn
  split at goesOn
  · cases goesOn
  all_goals
    rename_i reads
    cases goesOn
    have shorter := length_input_readLine_lt reads (by decide)
    exact shorter

/-- All that has been written when a session ends. -/
def rounds (options : Options) (stage : Stage) (session : PromptSession) :
    Transcript :=
  match _ : session.round options stage with
  | .ends written => written
  | .goesOn next => rounds options stage next
termination_by session.input.length
decreasing_by exact length_input_round_lt ‹_›

/-- The transcript of a session on a whole input. -/
def run (options : Options) (stage : Stage) (input : List UInt8) :
    Transcript :=
  (start input).rounds options stage

end PromptSession

end ParenCall
