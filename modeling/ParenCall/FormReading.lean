import ParenCall.SourceForm
import ParenCall.Token

/-!
# Reading forms from tokens

Reading takes one token at a time.  It keeps the list of forms being filled,
the calls that are still open, and what the next token has to be:

* a left parenthesis has to be followed at once by the callee name;
* a name anywhere else is the target of a literal, which has to be the next
  token after layout;
* the keyword outside every call declares: a name has to follow it after
  layout, and the literal of that name closes the declaration.  Inside a call
  the keyword is a form like any other.

A reader can be asked again after it has answered.  It then goes on from the
token it stopped at, and the calls that were open when it failed still count
as enclosing what comes next.
-/

namespace ParenCall

/-- Why tokens form no program.  `found` is the kind of the offending token,
or nothing at the end of the tokens. -/
inductive ReadError
  | unexpectedToken (found : Option TokenKind)
  | expectedLiteral (target : String) (found : Option TokenKind)
  | expectedCallee (found : Option TokenKind)
  | expectedTarget (found : Option TokenKind)
  | unterminatedCall (callee : String)
  deriving DecidableEq

namespace ReadError

/-- What was found, in words. -/
def foundName (found : Option TokenKind) : String :=
  (found.map TokenKind.name).getD "end of input"

/-- The wording of a read error. -/
def message : ReadError → String
  | .unexpectedToken found => "Unexpected token kind " ++ foundName found
  | .expectedLiteral target found =>
      "`" ++ target ++
        "` can only be followed by a number or a string literal, but " ++
        foundName found ++ " was found"
  | .expectedCallee found =>
      "A call must start with the callee name right after `(`, but " ++
        foundName found ++ " was found"
  | .expectedTarget found =>
      "`var` must be followed by the name it declares, but " ++
        foundName found ++ " was found"
  | .unterminatedCall callee =>
      "Unterminated call to `" ++ callee ++ "`, expected RightParen"

end ReadError

/-- What the next token has to be. -/
inductive Expectation
  /-- Any form. -/
  | form
  /-- The callee of a call, right after its left parenthesis. -/
  | callee
  /-- The name that a declaration introduces, or layout before it. -/
  | target
  /-- The literal that closes a declaration, or layout before it. -/
  | value
  deriving DecidableEq

/-- A call whose right parenthesis has not been read.  `preceding` are the forms
before it in the list that it stands in, the latest first. -/
structure OpenCall where
  callee : String
  preceding : List Form

/-- The state between two tokens.  `latest` are the forms of the list being
filled, the latest first, `calls` the open calls from the innermost outwards,
and `depth` the number of calls that enclose the next token. -/
structure Reading where
  expecting : Expectation
  latest : List Form
  calls : List OpenCall
  depth : Nat

/-- The nearest token that is not layout. -/
def nearestSolid (tokens : List Token) : Option Token :=
  tokens.find? (!·.isTrivia)

/-- Checks that a literal comes next after a target.  `rest` are the tokens
after the name. -/
def checkTarget (name : String) (rest : List Token) : Except ReadError Unit :=
  match nearestSolid rest with
  | some next =>
      if next.isLiteral then .ok ()
      else .error (.expectedLiteral name (some next.kind))
  | none => .error (.expectedLiteral name none)

namespace Reading

/-- Nothing read yet, inside `depth` calls that are never closed. -/
def start (depth : Nat) : Reading where
  expecting := .form
  latest := []
  calls := []
  depth := depth

/-- The forms of the list being filled, in source order. -/
def forms (reading : Reading) : List Form :=
  reading.latest.reverse

/-- More forms in the list being filled. -/
def add (reading : Reading) (forms : List Form) : Reading :=
  { reading with latest := forms.reverse ++ reading.latest }

@[simp] theorem forms_add (reading : Reading) (forms : List Form) :
    (reading.add forms).forms = reading.forms ++ forms := by
  simp [Reading.forms, add]

/-- A literal, and the semicolon of the declaration that it closes. -/
def addLiteral (reading : Reading) (literal : Form) : Reading :=
  match reading.expecting with
  | .value => { reading.add [literal, .semicolon] with expecting := .form }
  | _ => reading.add [literal]

/-- A target, after which `expecting` says what comes next. -/
def addTarget (reading : Reading) (name : String) (rest : List Token)
    (expecting : Expectation) : Except ReadError Reading :=
  match checkTarget name rest with
  | .ok () =>
      .ok { reading.add [.name name, .blank, .equals] with
        expecting := expecting }
  | .error error => .error error

/-- A call opens: its arguments are the list to fill. -/
def openCall (reading : Reading) (callee : String) : Reading where
  expecting := .form
  latest := []
  calls := ⟨callee, reading.latest⟩ :: reading.calls
  depth := reading.depth + 1

/-- The innermost call closes and joins the list that it stands in. -/
def closeCall (reading : Reading) : Except ReadError Reading :=
  match reading.calls with
  | [] => .error (.unexpectedToken (some .rightParen))
  | call :: calls =>
      .ok { reading with
        latest := .call call.callee reading.forms :: call.preceding
        calls := calls
        depth := reading.depth - 1 }

/-- The keyword: a form inside a call, the head of a declaration elsewhere. -/
def addVar (reading : Reading) : Reading :=
  if 0 < reading.depth then reading.add [.var]
  else { reading.add [.var] with expecting := .target }

/-- Takes a token that begins a form, or closes the innermost call.  `before`
are the tokens before it, nearest first, and `rest` the tokens after it.  A
name whose nearest neighbour before it is a left parenthesis is no target. -/
def takeForm (reading : Reading) (before : List Token) (token : Token)
    (rest : List Token) : Except ReadError Reading :=
  match token with
  | .blank => .ok (reading.add [.blank])
  | .newline => .ok (reading.add [.newline])
  | .number digits => .ok (reading.addLiteral (.number digits))
  | .string content => .ok (reading.addLiteral (.string content))
  | .equal => .ok (reading.add [.equals])
  | .identifier name =>
      if nearestSolid before = some .leftParen then
        .error (.unexpectedToken (some .identifier))
      else
        reading.addTarget name rest reading.expecting
  | .leftParen => .ok { reading with expecting := .callee }
  | .rightParen => reading.closeCall
  | .var => .ok reading.addVar

/-- Takes the token after a left parenthesis. -/
def takeCallee (reading : Reading) (token : Token) :
    Except ReadError Reading :=
  match token with
  | .identifier name => .ok (reading.openCall name)
  | token => .error (.expectedCallee (some token.kind))

/-- Takes a token between the keyword and the name that it declares. -/
def takeTarget (reading : Reading) (token : Token) (rest : List Token) :
    Except ReadError Reading :=
  match token with
  | .blank => .ok (reading.add [.blank])
  | .newline => .ok (reading.add [.newline])
  | .identifier name => reading.addTarget name rest .value
  | token => .error (.expectedTarget (some token.kind))

/-- Takes one token. -/
def take (reading : Reading) (before : List Token) (token : Token)
    (rest : List Token) : Except ReadError Reading :=
  match reading.expecting with
  | .form | .value => reading.takeForm before token rest
  | .callee => reading.takeCallee token
  | .target => reading.takeTarget token rest

/-- The program, at the end of the tokens.  A declaration that lacks its literal
there finds no form to read. -/
def finish (reading : Reading) : Except ReadError (List Form) :=
  match reading.expecting, reading.calls with
  | .callee, _ => .error (.expectedCallee none)
  | .target, _ => .error (.expectedTarget none)
  | .value, _ => .error (.unexpectedToken none)
  | .form, call :: _ => .error (.unterminatedCall call.callee)
  | .form, [] => .ok reading.forms

end Reading

/-- A place in a list of tokens.  `before` are the tokens already taken, the
nearest first, `after` the tokens to come, and `depth` the number of calls
that were entered and not left. -/
structure Reader where
  before : List Token
  after : List Token
  depth : Nat

namespace Reader

/-- The reader at the beginning of a list of tokens. -/
def ofTokens (tokens : List Token) : Reader where
  before := []
  after := tokens
  depth := 0

/-- Takes tokens up to the end or the first failure.  A token found in the
place of a callee has been taken when the failure is reported; every other
offending token is met again by the next reading. -/
def run (reading : Reading) (before : List Token) :
    List Token → Except ReadError (List Form) × Reader
  | [] => (reading.finish, ⟨before, [], reading.depth⟩)
  | token :: rest =>
      match reading.take before token rest with
      | .ok next => run next (token :: before) rest
      | .error error =>
          (.error error,
            if reading.expecting = .callee then
              ⟨token :: before, rest, reading.depth⟩
            else
              ⟨before, token :: rest, reading.depth⟩)

/-- Reads the remaining tokens. -/
def read (reader : Reader) : Except ReadError (List Form) × Reader :=
  run (.start reader.depth) reader.before reader.after

/-- The answers of successive readings with one reader. -/
def reads (reader : Reader) : Nat → List (Except ReadError (List Form))
  | 0 => []
  | times + 1 => reader.read.1 :: reader.read.2.reads times

end Reader

/-- The forms of a list of tokens, or the first failure in it. -/
def readForms (tokens : List Token) : Except ReadError (List Form) :=
  (Reader.ofTokens tokens).read.1

end ParenCall
