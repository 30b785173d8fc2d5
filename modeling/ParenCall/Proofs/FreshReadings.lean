import ParenCall.Proofs.WellFormedForms

/-!
# Fresh readings

A reading that began at the first token of a list knows more about the tokens
it has taken than a reading that goes on after a failure.  Its depth counts its
open calls, the parentheses taken so far differ by that depth, and a left
parenthesis is the nearest token before it only while the callee is expected.
In particular the nearest token before any other name is no left parenthesis.

All that a token can do to a reading is said once, as a list of steps.  That
each step preserves what a fresh reading knows, and that the literal of a
declaration comes next wherever it is expected, follows from this list.
-/

namespace ParenCall

/-- Whether a literal can be taken. -/
def Expectation.admitsLiteral : Expectation → Bool
  | .form | .value => true
  | .callee | .target => false

theorem Expectation.ne_callee_of_admitsLiteral {expecting : Expectation}
    (admits : expecting.admitsLiteral) : expecting ≠ .callee := by
  rintro rfl
  cases admits

namespace Reading

theorem addTarget_eq_ok_iff {reading next : Reading} {name : String}
    {rest : List Token} {expecting : Expectation} :
    reading.addTarget name rest expecting = .ok next ↔
      literalFollows rest = true ∧
        next = { reading.add [.name name, .blank, .equals] with
          expecting := expecting } := by
  rw [← checkTarget_eq_ok_iff name]
  unfold addTarget
  cases checkTarget name rest with
  | ok => simp [eq_comm]
  | error => simp

theorem closeCall_eq_ok_iff {reading next : Reading} :
    reading.closeCall = .ok next ↔
      ∃ call calls, reading.calls = call :: calls ∧
        next = { reading with
          latest := .call call.callee reading.forms :: call.preceding
          calls := calls
          depth := reading.depth - 1 } := by
  unfold closeCall
  cases reading.calls with
  | nil => simp
  | cons call calls =>
      constructor
      · intro closes
        cases closes
        exact ⟨call, calls, rfl, rfl⟩
      · rintro ⟨call, calls, same, rfl⟩
        cases same
        rfl

@[simp] theorem expecting_addLiteral {reading : Reading}
    (admits : reading.expecting.admitsLiteral) (literal : Form) :
    (reading.addLiteral literal).expecting = .form := by
  cases expecting : reading.expecting with
  | form | value => simp [addLiteral, add, expecting]
  | callee | target => simp [expecting, Expectation.admitsLiteral] at admits

@[simp] theorem calls_addLiteral (reading : Reading) (literal : Form) :
    (reading.addLiteral literal).calls = reading.calls := by
  unfold addLiteral
  split <;> rfl

@[simp] theorem depth_addLiteral (reading : Reading) (literal : Form) :
    (reading.addLiteral literal).depth = reading.depth := by
  unfold addLiteral
  split <;> rfl

@[simp] theorem calls_addVar (reading : Reading) :
    reading.addVar.calls = reading.calls := by
  unfold addVar
  split <;> rfl

@[simp] theorem depth_addVar (reading : Reading) :
    reading.addVar.depth = reading.depth := by
  unfold addVar
  split <;> rfl

/-- The ways in which a reading goes on when it takes a token, with `rest` the
tokens after it. -/
inductive Step (reading : Reading) (rest : List Token) : Token → Reading → Prop
  | trivia {token : Token} {form : Form} (isTrivia : token.isTrivia)
      (notCallee : reading.expecting ≠ .callee)
      (unreads : form.unread = [token]) :
      Step reading rest token (reading.add [form])
  | literal {token : Token} {form : Form} (isLiteral : token.isLiteral)
      (admits : reading.expecting.admitsLiteral)
      (unreads : form.unread = [token]) :
      Step reading rest token (reading.addLiteral form)
  | equal (admits : reading.expecting.admitsLiteral) :
      Step reading rest .equal (reading.add [.equals])
  | target {name : String} (admits : reading.expecting.admitsLiteral)
      (follows : literalFollows rest) :
      Step reading rest (.identifier name)
        (reading.add [.name name, .blank, .equals])
  | declared {name : String} (expects : reading.expecting = .target)
      (follows : literalFollows rest) :
      Step reading rest (.identifier name)
        { reading.add [.name name, .blank, .equals] with expecting := .value }
  | opening (admits : reading.expecting.admitsLiteral) :
      Step reading rest .leftParen { reading with expecting := .callee }
  | callee {name : String} (expects : reading.expecting = .callee) :
      Step reading rest (.identifier name) (reading.openCall name)
  | closing {call : OpenCall} {calls : List OpenCall}
      (admits : reading.expecting.admitsLiteral)
      (callsEq : reading.calls = call :: calls) :
      Step reading rest .rightParen { reading with
        latest := .call call.callee reading.forms :: call.preceding
        calls := calls
        depth := reading.depth - 1 }
  | var (admits : reading.expecting.admitsLiteral) :
      Step reading rest .var reading.addVar

theorem step_of_take {reading next : Reading} {before rest : List Token}
    {token : Token} (takes : reading.take before token rest = .ok next) :
    reading.Step rest token next := by
  cases expecting : reading.expecting with
  | form | value =>
      have admits : reading.expecting.admitsLiteral := by
        rw [expecting]
        rfl
      simp only [take, expecting] at takes
      cases token with
      | blank | newline =>
          cases takes
          exact .trivia rfl (by simp [expecting]) rfl
      | number | string =>
          cases takes
          exact .literal rfl admits rfl
      | equal =>
          cases takes
          exact .equal admits
      | identifier name =>
          simp only [takeForm] at takes
          split at takes
          · cases takes
          · obtain ⟨follows, rfl⟩ := addTarget_eq_ok_iff.mp takes
            exact .target admits follows
      | leftParen =>
          cases takes
          exact .opening admits
      | rightParen =>
          obtain ⟨call, calls, callsEq, rfl⟩ := closeCall_eq_ok_iff.mp takes
          exact .closing admits callsEq
      | var =>
          cases takes
          exact .var admits
  | callee =>
      simp only [take, expecting] at takes
      cases token with
      | identifier name =>
          cases takes
          exact .callee expecting
      | _ => cases takes
  | target =>
      simp only [take, expecting] at takes
      cases token with
      | blank | newline =>
          cases takes
          exact .trivia rfl (by simp [expecting]) rfl
      | identifier name =>
          obtain ⟨follows, rfl⟩ := addTarget_eq_ok_iff.mp takes
          exact .declared expecting follows
      | _ => cases takes

/-- Whether the literal of a declaration comes next where it is expected. -/
def AwaitsLiteral (reading : Reading) (rest : List Token) : Prop :=
  reading.expecting = .value → literalFollows rest = true

theorem awaitsLiteral_of_expecting {reading : Reading}
    (expects : reading.expecting ≠ .value) (rest : List Token) :
    reading.AwaitsLiteral rest := by
  intro expectsValue
  exact absurd expectsValue expects

/-- The literal that closes a declaration has been found with its name, and only
layout is taken in front of it. -/
theorem AwaitsLiteral.take {reading next : Reading} {before rest : List Token}
    {token : Token} (awaits : reading.AwaitsLiteral (token :: rest))
    (takes : reading.take before token rest = .ok next) :
    next.AwaitsLiteral rest := by
  intro expects
  cases step_of_take takes with
  | trivia isTrivia => simpa [isTrivia] using awaits expects
  | target _ follows | declared _ follows => exact follows
  | literal _ admits => simp [admits] at expects
  | opening | callee => cases expects
  | equal | closing =>
      have follows := awaits expects
      simp [Token.isTrivia, Token.isLiteral] at follows
  | var =>
      unfold addVar at expects
      split at expects
      · have follows := awaits expects
        simp [Token.isTrivia, Token.isLiteral] at follows
      · cases expects

/-- What holds of a reading that began at the first token, with `before` the
tokens taken so far and `rest` the tokens to come. -/
structure Fresh (reading : Reading) (before rest : List Token) : Prop where
  depth_eq : reading.depth = reading.calls.length
  opened_eq : before.count .leftParen =
    before.count .rightParen + reading.depth +
      if reading.expecting = .callee then 1 else 0
  callee_iff : reading.expecting = .callee ↔ before.head? = some .leftParen
  noCallee : reading.expecting ≠ .callee →
    nearestSolid before ≠ some .leftParen
  outside : reading.expecting = .target ∨ reading.expecting = .value →
    reading.depth = 0
  valueFollows : reading.AwaitsLiteral rest

theorem fresh_start (tokens : List Token) : (start 0).Fresh [] tokens where
  depth_eq := rfl
  opened_eq := by simp [start]
  callee_iff := by simp [start]
  noCallee := by simp
  outside := by simp [start]
  valueFollows := awaitsLiteral_of_expecting (by simp [start]) tokens

/-- Taking a token keeps a reading fresh. -/
theorem Fresh.take {reading next : Reading} {before rest : List Token}
    {token : Token} (fresh : reading.Fresh before (token :: rest))
    (takes : reading.take before token rest = .ok next) :
    next.Fresh (token :: before) rest := by
  have awaits := fresh.valueFollows.take takes
  obtain ⟨depth_eq, opened_eq, callee_iff, noCallee, outside, -⟩ := fresh
  cases step_of_take takes with
  | trivia isTrivia notCallee =>
      cases token with
      | blank | newline =>
          constructor <;> simp_all [add, Token.isTrivia]
      | _ => cases isTrivia
  | literal isLiteral admits =>
      have notCallee := Expectation.ne_callee_of_admitsLiteral admits
      cases token with
      | number | string =>
          constructor <;> simp_all [Token.isTrivia]
      | _ => cases isLiteral
  | equal admits | target admits =>
      have notCallee := Expectation.ne_callee_of_admitsLiteral admits
      constructor <;> simp_all [add, Token.isTrivia]
  | declared expects =>
      constructor <;> simp_all [add, Token.isTrivia]
  | opening admits =>
      have notCallee := Expectation.ne_callee_of_admitsLiteral admits
      constructor <;> simp_all [Token.isTrivia]
  | callee expects =>
      constructor <;> simp_all [openCall, Token.isTrivia]
      omega
  | closing admits callsEq =>
      have notCallee := Expectation.ne_callee_of_admitsLiteral admits
      constructor <;> simp_all [Token.isTrivia]
      omega
  | var admits =>
      have notCallee := Expectation.ne_callee_of_admitsLiteral admits
      by_cases enclosed : 0 < reading.depth
      · constructor <;> simp_all [addVar, add, Token.isTrivia]
      · constructor <;> simp_all [addVar, add, Token.isTrivia]

end Reading

end ParenCall
