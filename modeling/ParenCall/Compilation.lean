import ParenCall.EscapedCharacters
import ParenCall.FormReading
import ParenCall.PhraseLowering
import ParenCall.TokenScanning

/-!
# Compilation

Compiling a source text scans its tokens, reads their forms, lowers the forms
to phrases and writes the text of the phrases.  Rendering stops at one of these
stages and shows what has been reached.  A failure ends the compilation, and
there is never partial output.
-/

namespace ParenCall

/-- A stage of the compilation that can be shown. -/
inductive Stage
  /-- The tokens. -/
  | tokens
  /-- The forms of the intermediate syntax tree. -/
  | ist
  /-- The phrases of the output syntax tree. -/
  | ost
  /-- The output text. -/
  | output
  deriving DecidableEq

/-- A name that no stage has. -/
structure UnknownStage where
  name : String
  deriving DecidableEq

/-- The wording for an unknown stage. -/
def UnknownStage.message (unknown : UnknownStage) : String :=
  "Unknown stage `" ++ unknown.name ++
    "`, expected one of tokens, ist, ost, output"

namespace Stage

/-- The stage shown when none is named. -/
instance : Inhabited Stage := ⟨.output⟩

/-- The name of a stage. -/
def name : Stage → String
  | .tokens => "tokens"
  | .ist => "ist"
  | .ost => "ost"
  | .output => "output"

/-- The stage with the given name. -/
def ofName (text : String) : Except UnknownStage Stage :=
  if text = "tokens" then .ok .tokens
  else if text = "ist" then .ok .ist
  else if text = "ost" then .ok .ost
  else if text = "output" then .ok .output
  else .error ⟨text⟩

@[simp] theorem ofName_name (stage : Stage) :
    ofName stage.name = .ok stage := by
  cases stage <;> rfl

/-- All stages, in the order of the compilation. -/
def all : List Stage :=
  [.tokens, .ist, .ost, .output]

end Stage

/-- Why a compilation failed. -/
inductive CompileError
  /-- The source file cannot be read, or is no UTF-8 text. -/
  | unreadableSource
  | scan (error : ScanError)
  | read (error : ReadError)
  deriving DecidableEq

/-- The wording of a compile error. -/
def CompileError.message : CompileError → String
  | .unreadableSource => "CompilerInternalError: Failed open source file"
  | .scan error => "Scan error: " ++ error.message
  | .read error => "Syntax error: " ++ error.message

/-- The tokens of a source text. -/
def sourceTokens (source : String) : Except CompileError (List Token) :=
  (scan source).mapError .scan

/-- The forms of a source text. -/
def sourceForms (source : String) : Except CompileError (List Form) :=
  match sourceTokens source with
  | .ok tokens => (readForms tokens).mapError .read
  | .error error => .error error

/-- Compiles a source text up to a stage and shows the result. -/
def render (options : Options) (stage : Stage) (source : String) :
    Except CompileError String :=
  match stage with
  | .tokens => (sourceTokens source).map (tokensDump isEscaped)
  | .ist => (sourceForms source).map formsOutline
  | .ost =>
      (sourceForms source).map fun forms =>
        phrasesDump isEscaped (lowerForms options forms)
  | .output =>
      (sourceForms source).map fun forms =>
        phrasesText (lowerForms options forms)

/-- The output text of a source text. -/
def compile (options : Options) (source : String) :
    Except CompileError String :=
  render options .output source

/-- The source text of a file with the given content, if there is one. -/
def fileSource (content : Option ByteArray) : Except CompileError String :=
  match content.bind String.fromUTF8? with
  | some source => .ok source
  | none => .error .unreadableSource

/-- Compiles the content of a file up to a stage and shows the result. -/
def renderFile (options : Options) (stage : Stage)
    (content : Option ByteArray) : Except CompileError String :=
  match fileSource content with
  | .ok source => render options stage source
  | .error error => .error error

/-- The output text of the content of a file. -/
def compileFile (options : Options) (content : Option ByteArray) :
    Except CompileError String :=
  renderFile options .output content

end ParenCall
