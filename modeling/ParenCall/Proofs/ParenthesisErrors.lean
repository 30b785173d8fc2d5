import ParenCall.Proofs.ConcatenatedTokens
import ParenCall.Proofs.ContinuedReadings
import ParenCall.Proofs.UnclosedParentheses

/-!
# Errors about parentheses

Two errors of a fresh reading are about the balance of parentheses.  A token is
unexpected exactly if it is a right parenthesis after a whole program.  A call
is unterminated exactly if right parentheses are all that is missing; as many
are missing as left parentheses are never closed, and the call that is named is
the one that the last of these opens.

A state that is met in front of a right parenthesis, or at the end of the
tokens, does not depend on what comes there.  So both errors can be told from
the tokens before them.
-/

namespace ParenCall

theorem expectedLiteral_of_checkTarget {name : String} {rest : List Token}
    {error : ReadError} (fails : checkTarget name rest = .error error) :
    ∃ found, error = .expectedLiteral name found := by
  unfold checkTarget at fails
  split at fails
  · split at fails <;> cases fails
    exact ⟨_, rfl⟩
  · cases fails
    exact ⟨_, rfl⟩

namespace Reading

/-- Only a right parenthesis outside all calls is unexpected to a fresh
reading. -/
theorem Fresh.of_unexpectedToken {reading : Reading} {before rest : List Token}
    {token : Token} {found : Option TokenKind}
    (fresh : reading.Fresh before (token :: rest))
    (fails : reading.take before token rest =
      .error (.unexpectedToken found)) :
    found = some .rightParen ∧ token = .rightParen ∧
      reading.expecting = .form ∧ reading.calls = [] := by
  rcases fresh.take_error_cases fails with
    ⟨name, -, -, -, -, checked⟩ | ⟨isParen, same, expects, closed⟩ |
      ⟨-, same, -⟩ | ⟨-, same, -⟩
  · obtain ⟨_, same⟩ := expectedLiteral_of_checkTarget checked
    cases same
  · cases same
    exact ⟨rfl, isParen, expects, closed⟩
  all_goals cases same

/-- Calls are unterminated only at the end. -/
theorem Fresh.take_ne_unterminatedCall {reading : Reading}
    {before rest : List Token} {token : Token}
    (fresh : reading.Fresh before (token :: rest)) (callee : String) :
    reading.take before token rest ≠ .error (.unterminatedCall callee) := by
  intro fails
  rcases fresh.take_error_cases fails with
    ⟨name, -, -, -, -, checked⟩ | ⟨-, same, -⟩ | ⟨-, same, -⟩ | ⟨-, same, -⟩
  · obtain ⟨_, same⟩ := expectedLiteral_of_checkTarget checked
    cases same
  all_goals cases same

/-- The innermost open call is named if nothing but its end is missing. -/
theorem finish_eq_unterminatedCall_iff {reading : Reading} {callee : String} :
    reading.finish = .error (.unterminatedCall callee) ↔
      reading.expecting = .form ∧
        ∃ preceding calls, reading.calls = ⟨callee, preceding⟩ :: calls := by
  constructor
  · intro fails
    rcases finish_error_cases fails with
      ⟨-, same⟩ | ⟨-, same⟩ | ⟨-, same⟩ | ⟨expects, call, calls, callsEq, same⟩
    · cases same
    · cases same
    · cases same
    · cases same
      exact ⟨expects, call.preceding, calls, callsEq⟩
  · rintro ⟨expects, preceding, calls, callsEq⟩
    simp [finish, expects, callsEq]

/-- At the end of the tokens, a right parenthesis is taken only inside a
call. -/
theorem Fresh.of_take_rightParen {reading next : Reading}
    {before others : List Token} (fresh : reading.Fresh before [])
    (takes : reading.take before .rightParen others = .ok next) :
    reading.expecting = .form ∧
      ∃ callee preceding calls,
        reading.calls = ⟨callee, preceding⟩ :: calls := by
  cases expecting : reading.expecting with
  | form =>
      simp only [Reading.take, expecting] at takes
      obtain ⟨call, calls, callsEq, -⟩ := closeCall_eq_ok_iff.mp takes
      exact ⟨rfl, call.callee, call.preceding, calls, callsEq⟩
  | value => simpa using fresh.valueFollows expecting
  | callee | target =>
      simp only [Reading.take, expecting] at takes
      cases takes

end Reading

namespace Reader.Meets

variable {reader : Reader} {tokens before rest : List Token} {reading : Reading}

/-- A state is met in the same way with other tokens at the end, if a literal
still comes next where it did. -/
theorem replace {old new : List Token}
    (follows : ∀ later, literalFollows (later ++ old) →
      literalFollows (later ++ new))
    (later : List Token)
    (met : (ofTokens tokens).Meets reading before (later ++ old)) :
    (ofTokens (before.reverse ++ later ++ new)).Meets reading before
      (later ++ new) := by
  generalize restEq : later ++ old = rest at met
  induction met generalizing later with
  | start => exact .start
  | @take reading next before rest token met takes induction =>
      have replaced := induction (token :: later) (by rw [← restEq]; rfl)
      subst restEq
      have takesNew : reading.take before token (later ++ new) = .ok next :=
        Reading.take_of_literalFollows takes fun _ => follows later
      simpa using replaced.take takesNew

/-- The end of the tokens is met in front of more tokens too. -/
theorem append (met : (ofTokens tokens).Meets reading before [])
    (more : List Token) :
    (ofTokens (tokens ++ more)).Meets reading before more := by
  have follows : ∀ later : List Token, literalFollows (later ++ []) →
      literalFollows (later ++ more) := by
    intro later literal
    rw [List.append_nil] at literal
    exact literalFollows_append literal more
  have tokensEq : tokens = before.reverse := by
    simpa using met.tokens_eq
  rw [tokensEq]
  simpa using replace follows [] met

/-- What comes before a right parenthesis is read without it in the same way,
because no literal is looked for behind it. -/
theorem before_rightParen
    (met : (ofTokens tokens).Meets reading before (.rightParen :: rest)) :
    (ofTokens before.reverse).Meets reading before [] := by
  have follows : ∀ later : List Token,
      literalFollows (later ++ .rightParen :: rest) →
        literalFollows (later ++ []) := by
    intro later literal
    rw [literalFollows_append_rightParen] at literal
    rwa [List.append_nil]
  simpa using replace follows [] met

/-- A reading that succeeds comes past all its tokens. -/
theorem exists_passed {first : List Token} {forms : List Form}
    (met : reader.Meets reading before (first ++ rest))
    (accepts : (run reading before (first ++ rest)).1 = .ok forms) :
    ∃ passed, reader.Meets passed (first.reverse ++ before) rest := by
  induction first generalizing reading before with
  | nil => exact ⟨reading, met⟩
  | cons token first induction =>
      cases takes : reading.take before token (first ++ rest) with
      | ok next =>
          rw [List.cons_append, run_cons_of_take takes] at accepts
          simpa using induction (met.take takes) accepts
      | error error =>
          simp only [List.cons_append, run, takes] at accepts
          cases accepts

end Reader.Meets

open Reader in
/-- A fresh reading that fails comes to a state that cannot take the next token,
or to the end. -/
theorem exists_failure {tokens : List Token} {error : ReadError}
    (fails : readForms tokens = .error error) :
    (∃ last, (ofTokens tokens).Meets last tokens.reverse [] ∧
        last.finish = .error error) ∨
      ∃ stopped taken token following,
        (ofTokens tokens).Meets stopped taken (token :: following) ∧
          stopped.take taken token following = .error error := by
  obtain ⟨last, before, after, met, stops⟩ :=
    (Meets.start : (ofTokens tokens).Meets _ _ _).exists_last
  rw [readForms, met.read_eq] at fails
  cases after with
  | nil =>
      have taken : before = tokens.reverse := by
        simp [met.tokens_eq]
      subst taken
      exact Or.inl ⟨last, met, fails⟩
  | cons token rest =>
      obtain ⟨found, refuses⟩ := stops token rest rfl
      simp only [run, refuses] at fails
      cases fails
      exact Or.inr ⟨last, before, token, rest, met, refuses⟩

/-- The error for a right parenthesis that closes nothing comes right after a
whole program. -/
theorem readForms_eq_unexpectedToken_iff (tokens : List Token)
    (found : Option TokenKind) :
    readForms tokens = .error (.unexpectedToken found) ↔
      found = some .rightParen ∧
        ∃ first second forms, tokens = first ++ .rightParen :: second ∧
          readForms first = .ok forms := by
  constructor
  · intro fails
    rcases exists_failure fails with
      ⟨last, met, finishes⟩ | ⟨stopped, taken, token, following, met, stops⟩
    · -- A declaration that waits for its literal does not come to the end.
      exact absurd trivial
        (met.fresh.valueFollows.not_isLasting_of_finish finishes)
    · obtain ⟨rfl, rfl, expects, closed⟩ :=
        met.fresh.of_unexpectedToken stops
      refine ⟨rfl, taken.reverse, following, stopped.forms,
        met.tokens_eq, ?_⟩
      rw [readForms, met.before_rightParen.read_eq]
      simp [Reader.run, Reading.finish, expects, closed]
  · rintro ⟨rfl, first, second, forms, rfl, accepts⟩
    rw [readForms_append accepts]
    rfl

theorem exists_meets_of_unterminatedCall {tokens : List Token}
    {callee : String}
    (fails : readForms tokens = .error (.unterminatedCall callee)) :
    ∃ last, (Reader.ofTokens tokens).Meets last tokens.reverse [] ∧
      last.expecting = .form ∧
      ∃ preceding calls, last.calls = ⟨callee, preceding⟩ :: calls := by
  rcases exists_failure fails with
    ⟨last, met, finishes⟩ | ⟨stopped, taken, token, following, met, stops⟩
  · exact ⟨last, met, Reading.finish_eq_unterminatedCall_iff.mp finishes⟩
  · exact absurd stops (met.fresh.take_ne_unterminatedCall callee)

/-- Tokens lack right parentheses for all calls that are open at their end. -/
theorem exists_readForms_closings {tokens : List Token} {last : Reading}
    (met : (Reader.ofTokens tokens).Meets last tokens.reverse [])
    (expects : last.expecting = .form) :
    ∃ forms,
      readForms (tokens ++ List.replicate last.calls.length .rightParen) =
        .ok forms := by
  obtain ⟨forms, completes⟩ :=
    Reader.exists_run_rightParens expects tokens.reverse
  refine ⟨forms, ?_⟩
  rw [readForms, (met.append _).read_eq, completes]

/-- Tokens that lack only right parentheses end inside a call. -/
theorem exists_unterminatedCall_of_closings {tokens : List Token}
    {closings : Nat} {forms : List Form} (missing : 1 ≤ closings)
    (accepts : readForms (tokens ++ List.replicate closings .rightParen) =
      .ok forms) :
    ∃ callee, readForms tokens = .error (.unterminatedCall callee) := by
  obtain ⟨others, rfl⟩ := Nat.exists_eq_add_of_le' missing
  rw [List.replicate_succ] at accepts
  obtain ⟨last, met⟩ := Reader.Meets.start.exists_passed accepts
  change (Reader.ofTokens _).Meets last (tokens.reverse ++ []) _ at met
  rw [List.append_nil] at met
  have ended : (Reader.ofTokens tokens).Meets last tokens.reverse [] := by
    simpa using met.before_rightParen
  rw [readForms, met.read_eq] at accepts
  cases takes : last.take tokens.reverse .rightParen
      (List.replicate others .rightParen) with
  | error error =>
      simp only [Reader.run, takes] at accepts
      cases accepts
  | ok next =>
      obtain ⟨expects, callee, preceding, calls, callsEq⟩ :=
        ended.fresh.of_take_rightParen takes
      refine ⟨callee, ?_⟩
      rw [readForms, ended.read_eq]
      exact Reading.finish_eq_unterminatedCall_iff.mpr
        ⟨expects, preceding, calls, callsEq⟩

/-- The right parentheses that complete tokens are as many as the left ones
that are not closed. -/
theorem closings_eq_length_unclosed {tokens : List Token} {closings : Nat}
    {forms : List Form}
    (accepts : readForms (tokens ++ List.replicate closings .rightParen) =
      .ok forms) :
    closings = (unclosed tokens).length := by
  have grammatical := grammatical_of_readForms accepts
  have closed : tokens.count .rightParen + closings =
      tokens.count .leftParen := by
    simpa [List.count_replicate] using grammatical.closed_eq
  have opens : KeepsOpen tokens := by
    rintro first ⟨others, rfl⟩
    exact grammatical.closed_le first _ (List.append_assoc _ _ _)
  have lengths := length_unclosed tokens
  rw [(keepsOpen_iff tokens).mp opens] at lengths
  omega

/-- The call that is named begins at the last left parenthesis that is not
closed. -/
theorem getLast?_unclosed_of_unterminatedCall {tokens : List Token}
    {last : Reading} {callee : String} {preceding : List Form}
    {calls : List OpenCall}
    (met : (Reader.ofTokens tokens).Meets last tokens.reverse [])
    (expects : last.expecting = .form)
    (callsEq : last.calls = ⟨callee, preceding⟩ :: calls) :
    ∃ inner,
      (unclosed tokens).getLast? = some (.identifier callee :: inner) := by
  have notCallee : last.expecting ≠ .callee := by simp [expects]
  have same := met.openings_eq
  rw [Reading.openings_of_not_callee notCallee, List.reverse_reverse] at same
  have named : (unclosed tokens).getLast?.map List.head? =
      some (some (.identifier callee)) := by
    rw [← List.getLast?_map, ← openings, ← same, callsEq]
    simp
  obtain ⟨following, isLast, isFirst⟩ := Option.map_eq_some_iff.mp named
  obtain ⟨inner, rfl⟩ := List.head?_eq_some_iff.mp isFirst
  exact ⟨inner, isLast⟩

/-- Both errors about parentheses are exact.  A token is unexpected exactly if
it is a right parenthesis after a whole program: no name outside the place of a
callee has a left parenthesis before it, and a declaration always finds its
literal.  A call is unterminated exactly if only right parentheses are missing;
these are as many as the left parentheses that are not closed, and the call
begins at the last of them. -/
theorem readForms_parenthesis_errors (tokens : List Token) :
    (∀ found, readForms tokens = .error (.unexpectedToken found) ↔
      found = some .rightParen ∧
        ∃ first second forms, tokens = first ++ .rightParen :: second ∧
          readForms first = .ok forms) ∧
      (∀ reading before rest,
        (Reader.ofTokens tokens).Meets reading before rest →
        (reading.expecting ≠ .callee →
          nearestSolid before ≠ some .leftParen) ∧
        (reading.expecting = .value → literalFollows rest)) ∧
      ((∃ callee, readForms tokens = .error (.unterminatedCall callee)) ↔
        ∃ closings forms, 1 ≤ closings ∧
          readForms (tokens ++ List.replicate closings .rightParen) =
            .ok forms) ∧
      ∀ callee closings forms,
        readForms tokens = .error (.unterminatedCall callee) →
        readForms (tokens ++ List.replicate closings .rightParen) =
          .ok forms →
        closings = (unclosed tokens).length ∧
          ∃ inner,
            (unclosed tokens).getLast? =
              some (.identifier callee :: inner) := by
  refine ⟨readForms_eq_unexpectedToken_iff tokens, ?_, ⟨?_, ?_⟩, ?_⟩
  · intro reading before rest met
    exact ⟨met.fresh.noCallee, met.fresh.valueFollows⟩
  · rintro ⟨callee, fails⟩
    obtain ⟨last, met, expects, preceding, calls, callsEq⟩ :=
      exists_meets_of_unterminatedCall fails
    obtain ⟨forms, accepts⟩ := exists_readForms_closings met expects
    refine ⟨last.calls.length, forms, ?_, accepts⟩
    simp [callsEq]
  · rintro ⟨closings, forms, missing, accepts⟩
    exact exists_unterminatedCall_of_closings missing accepts
  · intro callee closings forms fails accepts
    obtain ⟨last, met, expects, preceding, calls, callsEq⟩ :=
      exists_meets_of_unterminatedCall fails
    exact ⟨closings_eq_length_unclosed accepts,
      getLast?_unclosed_of_unterminatedCall met expects callsEq⟩

theorem readForms_parenthesis_errors_two_calls_open :
    (readForms [.leftParen, .identifier "f", .leftParen, .identifier "g",
          .rightParen, .leftParen, .identifier "h", .number "1"] =
            .error (.unterminatedCall "h") ∧
        2 = (unclosed [.leftParen, .identifier "f", .leftParen,
          .identifier "g", .rightParen, .leftParen, .identifier "h",
          .number "1"]).length ∧
        ∃ inner, (unclosed [.leftParen, .identifier "f", .leftParen,
          .identifier "g", .rightParen, .leftParen, .identifier "h",
          .number "1"]).getLast? = some (.identifier "h" :: inner)) ∧
      readForms [.number "1", .rightParen, .leftParen] =
        .error (.unexpectedToken (some .rightParen)) := by
  refine ⟨⟨rfl, ?_⟩, ?_⟩
  · exact (readForms_parenthesis_errors _).2.2.2 "h" 2 _ rfl rfl
  · exact ((readForms_parenthesis_errors _).1 (some .rightParen)).mpr
      ⟨rfl, [.number "1"], [.leftParen], _, rfl, rfl⟩

end ParenCall
