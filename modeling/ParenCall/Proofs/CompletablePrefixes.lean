import Mathlib.Order.Bounds.Basic
import ParenCall.Proofs.ContinuedReadings

/-!
# Completable lists of tokens

A list of tokens is completable if it can be continued to a program.  A fresh
reading fails exactly at the first token that makes the tokens up to it
hopeless: whatever comes before this token is completable, and the error names
its kind.  If there is no such token, the error is about the end of the tokens.

Reading finds a name without a literal before it comes to the token in the place
of the literal.  The layout between them is completable all the same, so the
token that is named is still the first hopeless one.
-/

namespace ParenCall

/-- The kind of the token that an error is about, or nothing if it is about the
end of the tokens. -/
def ReadError.offender : ReadError → Option TokenKind
  | .unexpectedToken found | .expectedLiteral _ found | .expectedCallee found
  | .expectedTarget found => found
  | .unterminatedCall _ => none

/-- Whether tokens can be continued to a program. -/
def Completable (tokens : List Token) : Prop :=
  ∃ more forms, readForms (tokens ++ more) = .ok forms

/-- A target without a literal is followed by layout, and then by the offending
token or by nothing. -/
theorem exists_layout_of_checkTarget {name : String} {rest : List Token}
    {error : ReadError} (fails : checkTarget name rest = .error error) :
    ∃ layout following, rest = layout ++ following ∧
      (∀ token ∈ layout, token.isTrivia) ∧
      ((following = [] ∧ error.offender = none) ∨
        ∃ token more, following = token :: more ∧
          error.offender = some token.kind ∧
          ∀ others, checkTarget name (layout ++ token :: others) =
            .error error) := by
  cases solid : nearestSolid rest with
  | none =>
      simp only [checkTarget, solid] at fails
      cases fails
      have layoutTrivia : ∀ token ∈ rest, token.isTrivia := by
        simpa using List.find?_eq_none.mp solid
      exact ⟨rest, [], by simp, layoutTrivia, Or.inl ⟨rfl, rfl⟩⟩
  | some token =>
      have checks : ∀ others : List Token, nearestSolid others = some token →
          checkTarget name others = checkTarget name rest := by
        intro others same
        simp only [checkTarget, solid, same]
      have offends : error.offender = some token.kind := by
        simp only [checkTarget, solid] at fails
        split at fails <;> cases fails
        rfl
      obtain ⟨isSolid, layout, more, rfl, layoutTrivia⟩ :=
        nearestSolid_eq_some_iff.mp solid
      refine ⟨layout, token :: more, rfl, layoutTrivia,
        Or.inr ⟨token, more, rfl, offends, ?_⟩⟩
      intro others
      rw [← fails]
      apply checks
      exact nearestSolid_eq_some_iff.mpr
        ⟨isSolid, layout, others, rfl, layoutTrivia⟩

theorem offender_of_finish {reading : Reading} {error : ReadError}
    (fails : reading.finish = .error error) : error.offender = none := by
  rcases Reading.finish_error_cases fails with
    ⟨-, rfl⟩ | ⟨-, rfl⟩ | ⟨-, rfl⟩ | ⟨-, call, calls, -, rfl⟩
  all_goals rfl

namespace Reader

/-- A reading fails after tokens that can still be continued to a program: at
the end of the tokens, or at a token that makes every continuation fail. -/
structure FailsAfter (reading : Reading) (before passed rest : List Token)
    (error : ReadError) : Prop where
  completable : ∃ more forms,
    (run reading before (passed ++ more)).1 = .ok forms
  /-- A literal that comes next is among the tokens passed. -/
  literal : reading.expecting.admitsLiteral →
    literalFollows (passed ++ rest) → literalFollows passed
  offends : (rest = [] ∧ error.offender = none) ∨
    ∃ token following, rest = token :: following ∧
      error.offender = some token.kind ∧
      ∀ more, (run reading before (passed ++ token :: more)).1 = .error error

variable {reading next : Reading} {before passed rest : List Token}
  {token : Token} {error : ReadError}

theorem run_cons_of_take_error
    (fails : reading.take before token rest = .error error) :
    (run reading before (token :: rest)).1 = .error error := by
  simp [run, fails]

/-- A token that has been taken stands in front of the tokens passed. -/
theorem FailsAfter.cons
    (takes : reading.take before token (passed ++ rest) = .ok next)
    (fails : FailsAfter next (token :: before) passed rest error) :
    FailsAfter reading before (token :: passed) rest error := by
  have takesAll (more : List Token) :
      reading.take before token (passed ++ more) = .ok next :=
    Reading.take_of_literalFollows takes fun admits follows =>
      literalFollows_append (fails.literal admits follows) more
  constructor
  · obtain ⟨more, forms, completes⟩ := fails.completable
    refine ⟨more, forms, ?_⟩
    rw [List.cons_append, run_cons_of_take (takesAll more)]
    exact completes
  · intro admits follows
    by_cases isTrivia : token.isTrivia
    · have notCallee := Expectation.ne_callee_of_admitsLiteral admits
      obtain ⟨other, takesOther, expects⟩ :=
        Reading.take_trivia isTrivia notCallee before (passed ++ rest)
      rw [takes] at takesOther
      cases takesOther
      simp only [List.cons_append, literalFollows_cons, isTrivia,
        if_true] at follows ⊢
      exact fails.literal (expects ▸ admits) follows
    · simpa [isTrivia] using follows
  · rcases fails.offends with
      atEnd | ⟨offending, following, restEq, offends, failsAll⟩
    · exact Or.inl atEnd
    · refine Or.inr ⟨offending, following, restEq, offends, ?_⟩
      intro more
      rw [List.cons_append, run_cons_of_take (takesAll _)]
      exact failsAll more

/-- A token that is never taken where it stands fails at once. -/
theorem failsAfter_nil
    (fails : ∀ others, reading.take before token others = .error error)
    (offends : error.offender = some token.kind)
    (noLiteral : reading.expecting.admitsLiteral →
      literalFollows (token :: rest) = false) :
    FailsAfter reading before [] (token :: rest) error where
  completable := exists_run reading before
  literal := by
    intro admits follows
    rw [List.nil_append, noLiteral admits] at follows
    cases follows
  offends := Or.inr ⟨token, rest, rfl, offends,
    fun more => run_cons_of_take_error (fails more)⟩

/-- A target fails after the layout that follows it. -/
theorem exists_failsAfter_of_checkTarget {name : String}
    {expecting : Expectation} (admits : expecting.admitsLiteral)
    (adds : ∀ others, reading.take before (.identifier name) others =
      reading.addTarget name others expecting)
    (fails : checkTarget name rest = .error error) :
    ∃ passed following, .identifier name :: rest = passed ++ following ∧
      FailsAfter reading before passed following error := by
  obtain ⟨layout, following, rfl, layoutTrivia, ends⟩ :=
    exists_layout_of_checkTarget fails
  refine ⟨.identifier name :: layout, following, rfl, ?_, ?_, ?_⟩
  · let next : Reading :=
      { reading.add [.name name, .blank, .equals] with expecting := expecting }
    obtain ⟨more, forms, follows, completes⟩ := @exists_run_layout layout
      layoutTrivia next admits (.identifier name :: before)
    have takes : reading.take before (.identifier name) (layout ++ more) =
        .ok next := by
      rw [adds]
      exact Reading.addTarget_eq_ok_iff.mpr ⟨follows, rfl⟩
    refine ⟨more, forms, ?_⟩
    rw [List.cons_append, run_cons_of_take takes]
    exact completes
  · intro _ follows
    simp [Token.isTrivia, Token.isLiteral] at follows
  · rcases ends with atEnd | ⟨token, more, rfl, offends, failsAll⟩
    · exact Or.inl atEnd
    · refine Or.inr ⟨token, more, rfl, offends, ?_⟩
      intro others
      apply run_cons_of_take_error
      rw [adds]
      exact Reading.addTarget_eq_error_iff.mpr (failsAll others)

/-- A token that a fresh reading does not take is hopeless, or is a target with
a hopeless token after it. -/
theorem exists_failsAfter_of_take
    (fresh : reading.Fresh before (token :: rest))
    (fails : reading.take before token rest = .error error) :
    ∃ passed following, token :: rest = passed ++ following ∧
      FailsAfter reading before passed following error := by
  rcases fresh.take_error_cases fails with
    ⟨name, expecting, rfl, admits, adds, checked⟩ |
      ⟨rfl, rfl, expects, closed⟩ | ⟨expects, rfl, failsAll⟩ |
      ⟨expects, rfl, failsAll⟩
  · exact exists_failsAfter_of_checkTarget admits adds checked
  · refine ⟨[], _, rfl, failsAfter_nil ?_ rfl ?_⟩
    · intro others
      simp [Reading.take, Reading.takeForm, Reading.closeCall, expects, closed]
    · intro _
      simp [Token.isTrivia, Token.isLiteral]
  all_goals
    refine ⟨[], _, rfl, failsAfter_nil failsAll rfl ?_⟩
    simp [expects, Expectation.admitsLiteral]

/-- A fresh reading that fails does so after the longest tokens that can be
continued to a program. -/
theorem exists_failsAfter {tokens : List Token}
    (fresh : reading.Fresh before tokens)
    (fails : (run reading before tokens).1 = .error error) :
    ∃ passed rest, tokens = passed ++ rest ∧
      FailsAfter reading before passed rest error := by
  induction tokens generalizing reading before with
  | nil =>
      refine ⟨[], [], rfl, exists_run reading before, by simp, ?_⟩
      exact Or.inl ⟨rfl, offender_of_finish fails⟩
  | cons token tokens induction =>
      cases takes : reading.take before token tokens with
      | error found =>
          rw [run_cons_of_take_error takes] at fails
          cases fails
          exact exists_failsAfter_of_take fresh takes
      | ok next =>
          rw [run_cons_of_take takes] at fails
          obtain ⟨passed, rest, rfl, failsAfter⟩ :=
            induction (fresh.take takes) fails
          exact ⟨token :: passed, rest, rfl, failsAfter.cons takes⟩

end Reader

/-- The tokens that a failed reading has passed are the longest first tokens
that are completable. -/
theorem isGreatest_length_passed {passed rest : List Token} {error : ReadError}
    (fails : Reader.FailsAfter (.start 0) [] passed rest error) :
    IsGreatest
      {count | count ≤ (passed ++ rest).length ∧
        Completable ((passed ++ rest).take count)}
      passed.length := by
  constructor
  · refine ⟨by simp, ?_⟩
    rw [List.take_left]
    exact fails.completable
  · rintro count ⟨bound, more, forms, accepts⟩
    by_contra longer
    rcases fails.offends with
      ⟨rfl, -⟩ | ⟨token, following, rfl, -, failsAll⟩
    · simp at bound longer
      omega
    · -- The first `count` tokens reach the offending token.
      obtain ⟨extra, countEq⟩ := Nat.exists_eq_add_of_lt (not_le.mp longer)
      have taken : (passed ++ token :: following).take count =
          passed ++ token :: following.take extra := by
        rw [countEq, Nat.add_assoc, List.take_length_add_append]
        rfl
      rw [taken, List.append_assoc, List.cons_append] at accepts
      have refused := failsAll (following.take extra ++ more)
      have accepted : (Reader.run (.start 0) []
          (passed ++ token :: (following.take extra ++ more))).1 =
            .ok forms :=
        accepts
      rw [refused] at accepted
      cases accepted

/-- Reading fails at the first token that makes the tokens up to it hopeless.
If there is one, the error names its kind and stays the same whatever tokens
follow; if there is none, the error is about the end of the tokens.  So errors
about the end are those of tokens that are completable. -/
theorem offender_eq_kind_of_first_hopeless {tokens : List Token}
    {error : ReadError} (fails : readForms tokens = .error error) :
    ∃ length,
      IsGreatest
        {count | count ≤ tokens.length ∧ Completable (tokens.take count)}
        length ∧
      (∀ inside : length < tokens.length,
        error.offender = some tokens[length].kind ∧
          ∀ more, readForms (tokens ++ more) = .error error) ∧
      (length = tokens.length → error.offender = none) ∧
      (error.offender = none ↔ Completable tokens) := by
  obtain ⟨passed, rest, rfl, failsAfter⟩ :=
    Reader.exists_failsAfter (Reading.fresh_start tokens) fails
  have longest := isGreatest_length_passed failsAfter
  refine ⟨passed.length, longest, ?_⟩
  rcases failsAfter.offends with
    ⟨rfl, offends⟩ | ⟨token, following, rfl, offends, failsAll⟩
  · refine ⟨by simp, fun _ => offends, ?_⟩
    rw [List.append_nil]
    exact iff_of_true offends failsAfter.completable
  · refine ⟨?_, by simp, ?_⟩
    · intro inside
      refine ⟨by simpa using offends, ?_⟩
      intro more
      rw [List.append_assoc, List.cons_append]
      exact failsAll (following ++ more)
    · rw [offends]
      constructor
      · intro impossible
        cases impossible
      · intro completable
        have bound := longest.2
          ⟨le_refl _, by rw [List.take_length]; exact completable⟩
        rw [List.length_append, List.length_cons] at bound
        omega

theorem offender_eq_kind_of_first_hopeless_target_and_call :
    (readForms [.leftParen, .identifier "f", .identifier "x", .blank,
        .rightParen, .number "1"] =
          .error (.expectedLiteral "x" (some .rightParen)) ∧
      ¬ Completable [.leftParen, .identifier "f", .identifier "x", .blank,
        .rightParen, .number "1"]) ∧
      (readForms [.leftParen, .number "1"] =
          .error (.expectedCallee (some .number)) ∧
        ∀ more, readForms ([.leftParen, .number "1"] ++ more) =
          .error (.expectedCallee (some .number))) ∧
      readForms [.leftParen, .identifier "f", .blank] =
          .error (.unterminatedCall "f") ∧
        Completable [.leftParen, .identifier "f", .blank] := by
  refine ⟨⟨rfl, ?_⟩, ⟨rfl, ?_⟩, rfl, ?_⟩
  · obtain ⟨length, -, -, -, completable⟩ :=
      @offender_eq_kind_of_first_hopeless [.leftParen, .identifier "f",
        .identifier "x", .blank, .rightParen, .number "1"] _ rfl
    exact mt completable.mpr (by simp [ReadError.offender])
  · obtain ⟨length, longest, stays, atEnd, -⟩ :=
      @offender_eq_kind_of_first_hopeless [.leftParen, .number "1"] _ rfl
    have offends : length ≠ 2 := fun same => by cases atEnd same
    have bound : length ≤ 2 := longest.1.1
    exact (stays (by simp; omega)).2
  · obtain ⟨length, -, -, -, completable⟩ :=
      @offender_eq_kind_of_first_hopeless
        [.leftParen, .identifier "f", .blank] _ rfl
    exact completable.mp rfl

end ParenCall
