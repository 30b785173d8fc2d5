import ParenCall.PromptSession

/-!
# The command line

The command takes its options first, in any order and each at most once, and
then a task: to compile a file, to compile a text given as an argument, or to
hold a prompt session.  Arguments that do not fit this form name no invocation.
The stage to show is checked when the command runs, before anything is read.
-/

namespace ParenCall

/-- What the command is asked to do. -/
inductive Task
  /-- Compile the file at a path. -/
  | file (path : String)
  /-- Compile a text. -/
  | eval (source : String)
  /-- Hold a prompt session. -/
  | repl
  deriving DecidableEq

/-- What the arguments of the command ask for.  `emit` is the stage to show, as
it was written. -/
structure Invocation where
  keepVar : Bool
  emit : Option String
  task : Task
  deriving DecidableEq

/-- Whether an argument looks like an option: a dash with more after it. -/
def isOption (argument : String) : Bool :=
  match argument.toList with
  | '-' :: _ :: _ => true
  | _ => false

/-- The positional arguments of a task.  Arguments that look like options are
refused, except after an argument `--`, which is left out. -/
def positionals : List String → Option (List String)
  | [] => some []
  | argument :: rest =>
      if argument = "--" then some rest
      else if isOption argument then none
      else (positionals rest).map (argument :: ·)

/-- The task with the given name and positional arguments. -/
def Task.ofArguments (name : String) (arguments : List String) :
    Option Task :=
  match name, arguments with
  | "file", [path] => some (.file path)
  | "eval", [source] => some (.eval source)
  | "repl", [] => some .repl
  | _, _ => none

/-- The value written into an argument `--emit=value`. -/
def attachedStage (argument : String) : Option String :=
  let flag := "--emit=".toList
  if flag.isPrefixOf argument.toList then
    some (String.ofList (argument.toList.drop flag.length))
  else
    none

namespace Invocation

/-- The invocation of a task, named by the first argument, after all
options. -/
def ofTask (keepVar : Bool) (emit : Option String) :
    List String → Option Invocation
  | [] => none
  | name :: rest =>
      (positionals rest).bind fun arguments =>
        (Task.ofArguments name arguments).map (⟨keepVar, emit, ·⟩)

/-- The invocation of the remaining arguments, after the options already read.
An argument `--` ends the options. -/
def parseAfter (keepVar : Bool) (emit : Option String) :
    List String → Option Invocation
  | [] => none
  | "--" :: rest => ofTask keepVar emit rest
  | "--keep-var" :: rest =>
      if keepVar then none else parseAfter true emit rest
  | "--emit" :: value :: rest =>
      if emit.isSome || isOption value then none
      else parseAfter keepVar (some value) rest
  | argument :: rest =>
      match attachedStage argument with
      | some value =>
          if emit.isSome then none else parseAfter keepVar (some value) rest
      | none => ofTask keepVar emit (argument :: rest)

/-- The invocation that the arguments ask for. -/
def parse (arguments : List String) : Option Invocation :=
  parseAfter false none arguments

/-- The options of the compilation. -/
def options (invocation : Invocation) : Options where
  keepVar := invocation.keepVar

/-- The stage to show. -/
def stage (invocation : Invocation) : Except UnknownStage Stage :=
  match invocation.emit with
  | some name => Stage.ofName name
  | none => .ok default

end Invocation

/-- What the command leaves behind: its exit code and what it wrote. -/
structure Outcome where
  code : UInt32
  transcript : Transcript
  deriving DecidableEq

namespace Outcome

/-- The command did what it was asked to. -/
def success (transcript : Transcript) : Outcome where
  code := 0
  transcript := transcript

/-- The command failed with a message. -/
def failure (message : String) : Outcome where
  code := 1
  transcript := { errors := message ++ "\n" }

/-- The outcome of showing a result, or of failing with a message that begins
with `label`. -/
def ofResult (label : String) : Except CompileError String → Outcome
  | .ok text => success { output := text ++ "\n" }
  | .error error => failure (label ++ ": " ++ error.message)

end Outcome

/-- Runs the command.  `readFile` gives the content of a file that can be read,
and `input` is what stands on the standard input. -/
def Invocation.run (readFile : String → Option ByteArray)
    (input : List UInt8) (invocation : Invocation) : Outcome :=
  match invocation.stage with
  | .error unknown => .failure ("Invalid --emit: " ++ unknown.message)
  | .ok stage =>
      match invocation.task with
      | .file path =>
          .ofResult "Failed run file"
            (renderFile invocation.options stage (readFile path))
      | .eval source =>
          .ofResult "Failed compile" (render invocation.options stage source)
      | .repl =>
          .success (PromptSession.run invocation.options stage input)

end ParenCall
