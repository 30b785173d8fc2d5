import ParenCall.Proofs.FreshReadings
import ParenCall.Proofs.ReadingWellFormedForms
import ParenCall.Proofs.SettledReadings

/-!
# Continued readings

A reading asks only one question about the tokens after the one that it takes:
whether a literal comes next, apart from layout.  So a token that has been taken
is taken in the same way in front of any other tokens, if a literal still comes
next in them.  A token that a fresh reading does not take is a name without its
literal, or is not taken whatever comes after it.

Every reading can be continued to a program.  What it expects can be given to
it, a literal where it may stand, and then all open calls can be closed.
-/

namespace ParenCall

theorem literalFollows_append {tokens : List Token}
    (follows : literalFollows tokens) (more : List Token) :
    literalFollows (tokens ++ more) := by
  unfold literalFollows at *
  rw [nearestSolid_append]
  cases solid : nearestSolid tokens with
  | none => simp [solid] at follows
  | some token => simpa [solid] using follows

/-- A right parenthesis hides the tokens after it. -/
theorem literalFollows_append_rightParen (tokens more : List Token) :
    literalFollows (tokens ++ .rightParen :: more) = literalFollows tokens := by
  unfold literalFollows
  rw [nearestSolid_append]
  cases solid : nearestSolid tokens with
  | none => simp [Token.isTrivia, Token.isLiteral]
  | some token => simp

namespace Reading

theorem admitsLiteral_of_addTarget {reading next : Reading} {name : String}
    {rest other : List Token} {expecting : Expectation}
    (admits : expecting.admitsLiteral)
    (adds : reading.addTarget name rest expecting = .ok next)
    (follows : next.expecting.admitsLiteral → literalFollows rest →
      literalFollows other) :
    reading.addTarget name other expecting = .ok next := by
  obtain ⟨literal, rfl⟩ := addTarget_eq_ok_iff.mp adds
  exact addTarget_eq_ok_iff.mpr ⟨follows admits literal, rfl⟩

/-- A token is taken in the same way in front of other tokens, if these begin
with a literal where the reading has looked for one. -/
theorem take_of_literalFollows {reading next : Reading}
    {before rest other : List Token} {token : Token}
    (takes : reading.take before token rest = .ok next)
    (follows : next.expecting.admitsLiteral → literalFollows rest →
      literalFollows other) :
    reading.take before token other = .ok next := by
  cases expecting : reading.expecting with
  | form | value =>
      simp only [take, expecting] at takes ⊢
      cases token with
      | identifier name =>
          simp only [takeForm] at takes ⊢
          split at takes
          · cases takes
          · rename_i noCallee
            rw [if_neg noCallee]
            exact admitsLiteral_of_addTarget (by rw [expecting]; rfl) takes
              follows
      | _ => exact takes
  | callee =>
      simp only [take, expecting] at takes ⊢
      exact takes
  | target =>
      simp only [take, expecting] at takes ⊢
      cases token with
      | identifier name => exact admitsLiteral_of_addTarget rfl takes follows
      | _ => exact takes

/-- Layout leaves what is expected as it was. -/
theorem take_trivia {reading : Reading} {token : Token}
    (isTrivia : token.isTrivia) (notCallee : reading.expecting ≠ .callee)
    (before rest : List Token) :
    ∃ next, reading.take before token rest = .ok next ∧
      next.expecting = reading.expecting := by
  cases token with
  | blank | newline =>
      cases expecting : reading.expecting <;>
        simp_all [take, takeForm, takeTarget]
  | _ => simp [Token.isTrivia] at isTrivia

/-- A literal is taken where it may stand, and any form may come after it. -/
theorem take_number {reading : Reading}
    (admits : reading.expecting.admitsLiteral) (digits : String)
    (before rest : List Token) :
    ∃ next, reading.take before (.number digits) rest = .ok next ∧
      next.expecting = .form := by
  cases expecting : reading.expecting with
  | form | value => simp [take, takeForm, addLiteral, expecting]
  | callee | target => simp [expecting, Expectation.admitsLiteral] at admits

/-- The tokens that a fresh reading does not take: a name without a literal
after it, a right parenthesis that closes nothing, and what is neither the
callee nor the target that is expected. -/
theorem Fresh.take_error_cases {reading : Reading} {before rest : List Token}
    {token : Token} {error : ReadError}
    (fresh : reading.Fresh before (token :: rest))
    (fails : reading.take before token rest = .error error) :
    (∃ name expecting, token = .identifier name ∧ expecting.admitsLiteral ∧
        (∀ others, reading.take before token others =
          reading.addTarget name others expecting) ∧
        checkTarget name rest = .error error) ∨
      (token = .rightParen ∧ error = .unexpectedToken (some .rightParen) ∧
        reading.expecting = .form ∧ reading.calls = []) ∨
      (reading.expecting = .callee ∧
        error = .expectedCallee (some token.kind) ∧
        ∀ others, reading.take before token others = .error error) ∨
      (reading.expecting = .target ∧
        error = .expectedTarget (some token.kind) ∧
        ∀ others, reading.take before token others = .error error) := by
  cases expecting : reading.expecting with
  | form =>
      have noCallee := fresh.noCallee (by simp [expecting])
      simp only [Reading.take, expecting] at fails
      rcases takeForm_eq_error_iff.mp fails with
        ⟨name, rfl, ⟨callee, -⟩ | ⟨-, checked⟩⟩ | ⟨rfl, closed, rfl⟩
      · exact absurd callee noCallee
      · refine Or.inl ⟨name, .form, rfl, rfl, ?_, checked⟩
        intro others
        simp [Reading.take, Reading.takeForm, expecting, noCallee]
      · exact Or.inr (Or.inl ⟨rfl, rfl, rfl, closed⟩)
  | value =>
      -- The literal that the declaration waits for comes next.
      have follows := fresh.valueFollows expecting
      simp only [Reading.take, expecting] at fails
      rcases takeForm_eq_error_iff.mp fails with
        ⟨name, rfl, -⟩ | ⟨rfl, -, -⟩
      · simp [Token.isTrivia, Token.isLiteral] at follows
      · simp [Token.isTrivia, Token.isLiteral] at follows
  | callee =>
      simp only [Reading.take, expecting] at fails ⊢
      cases token with
      | identifier name => cases fails
      | _ =>
          cases fails
          exact Or.inr (Or.inr (Or.inl ⟨trivial, rfl, fun _ => rfl⟩))
  | target =>
      simp only [Reading.take, expecting] at fails ⊢
      cases token with
      | blank | newline => cases fails
      | identifier name =>
          have checked := addTarget_eq_error_iff.mp fails
          exact Or.inl ⟨name, .value, rfl, rfl, fun _ => rfl, checked⟩
      | _ =>
          cases fails
          exact Or.inr (Or.inr (Or.inr ⟨trivial, rfl, fun _ => rfl⟩))

end Reading

namespace Reader

/-- As many right parentheses as there are open calls complete a reading. -/
theorem exists_run_rightParens {reading : Reading}
    (expects : reading.expecting = .form) (before : List Token) :
    ∃ forms,
      (run reading before
        (List.replicate reading.calls.length .rightParen)).1 = .ok forms := by
  induction callsEq : reading.calls generalizing reading before with
  | nil => simp [run, Reading.finish, expects, callsEq]
  | cons call calls induction =>
      let closed : Reading := { reading with
        latest := .call call.callee reading.forms :: call.preceding
        calls := calls
        depth := reading.depth - 1 }
      have closes : reading.take before .rightParen
          (List.replicate calls.length .rightParen) = .ok closed := by
        simp [Reading.take, Reading.takeForm, Reading.closeCall, expects,
          callsEq, closed]
      have closedExpects : closed.expecting = .form := expects
      rw [List.length_cons, List.replicate_succ, run_cons_of_take closes]
      exact induction closedExpects (.rightParen :: before) rfl

/-- Layout where a literal may stand can be continued, with a literal, to a
program. -/
theorem exists_run_layout {layout : List Token}
    (layoutTrivia : ∀ token ∈ layout, token.isTrivia) {reading : Reading}
    (admits : reading.expecting.admitsLiteral) (before : List Token) :
    ∃ more forms, literalFollows (layout ++ more) ∧
      (run reading before (layout ++ more)).1 = .ok forms := by
  induction layout generalizing reading before with
  | nil =>
      obtain ⟨next, takes, expects⟩ := Reading.take_number admits "0" before []
      obtain ⟨forms, completes⟩ :=
        exists_run_rightParens expects (.number "0" :: before)
      refine ⟨.number "0" :: List.replicate next.calls.length .rightParen,
        forms, rfl, ?_⟩
      rw [List.nil_append]
      rw [run_cons_of_take (Reading.take_of_literalFollows takes (by simp))]
      exact completes
  | cons token layout induction =>
      have isTrivia : token.isTrivia := layoutTrivia token (by simp)
      have notCallee := Expectation.ne_callee_of_admitsLiteral admits
      obtain ⟨next, takes, expects⟩ :=
        Reading.take_trivia isTrivia notCallee before []
      obtain ⟨more, forms, follows, completes⟩ := induction
        (fun other member => layoutTrivia other (by simp [member]))
        (expects ▸ admits) (token :: before)
      refine ⟨more, forms, by simpa [isTrivia] using follows, ?_⟩
      rw [List.cons_append,
        run_cons_of_take (Reading.take_of_literalFollows takes (by simp))]
      exact completes

/-- Every reading can be continued to a program. -/
theorem exists_run (reading : Reading) (before : List Token) :
    ∃ more forms, (run reading before more).1 = .ok forms := by
  cases expecting : reading.expecting with
  | form | value =>
      obtain ⟨more, forms, -, completes⟩ := @exists_run_layout [] (by simp)
        reading (by rw [expecting]; rfl) before
      exact ⟨more, forms, completes⟩
  | callee =>
      obtain ⟨more, forms, -, completes⟩ := @exists_run_layout [] (by simp)
        (reading.openCall "f") rfl (.identifier "f" :: before)
      have opens : reading.take before (.identifier "f") more =
          .ok (reading.openCall "f") := by
        simp [Reading.take, Reading.takeCallee, expecting]
      refine ⟨.identifier "f" :: more, forms, ?_⟩
      rw [run_cons_of_take opens]
      exact completes
  | target =>
      let next : Reading :=
        { reading.add [.name "x", .blank, .equals] with expecting := .value }
      obtain ⟨more, forms, follows, completes⟩ := @exists_run_layout []
        (by simp) next rfl (.identifier "x" :: before)
      have declares : reading.take before (.identifier "x") more =
          .ok next := by
        simp only [Reading.take, expecting, Reading.takeTarget]
        exact Reading.addTarget_eq_ok_iff.mpr ⟨follows, rfl⟩
      refine ⟨.identifier "x" :: more, forms, ?_⟩
      rw [run_cons_of_take declares]
      exact completes

end Reader

end ParenCall
