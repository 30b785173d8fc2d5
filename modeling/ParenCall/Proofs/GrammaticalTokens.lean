import ParenCall.Proofs.FreshReadings
import ParenCall.Proofs.ReadingWellFormedForms

/-!
# Grammatical lists of tokens

Whether tokens form a program can be told without reading them into forms, by
conditions on the tokens and their neighbours alone.  A name follows every left
parenthesis, the parentheses are balanced, a literal follows every name that is
no callee, and a name follows every keyword outside all parentheses.

Each condition concerns one token and is checked when a fresh reading takes
that token, or when it takes the next one that is not layout.
-/

namespace ParenCall

/-- What the tokens to come have to begin with. -/
def Expectation.Met : Expectation → List Token → Prop
  | .form, _ | .value, _ => True
  | .callee, tokens => ∃ name rest, tokens = .identifier name :: rest
  | .target, tokens => ∃ name, nearestSolid tokens = some (.identifier name)

@[simp] theorem Expectation.met_form (tokens : List Token) :
    Expectation.form.Met tokens := by
  trivial

@[simp] theorem Expectation.met_value (tokens : List Token) :
    Expectation.value.Met tokens := by
  trivial

/-- The condition on one token, with the tokens before it nearest first. -/
def TokenFits (before : List Token) (token : Token) (rest : List Token) :
    Prop :=
  match token with
  | .leftParen => ∃ name following, rest = .identifier name :: following
  | .rightParen => before.count .rightParen < before.count .leftParen
  | .identifier _ =>
      before.head? ≠ some .leftParen → literalFollows rest = true
  | .var =>
      before.count .leftParen = before.count .rightParen →
        ∃ name, nearestSolid rest = some (.identifier name)
  | _ => True

/-- The conditions on all tokens to come, and balance at the end. -/
def TokensFit : List Token → List Token → Prop
  | before, [] => before.count .leftParen = before.count .rightParen
  | before, token :: rest =>
      TokenFits before token rest ∧ TokensFit (token :: before) rest

namespace Reading

theorem exists_addTarget_iff {reading : Reading} {name : String}
    {rest : List Token} {expecting : Expectation}
    (met : expecting.Met rest) :
    (∃ next, reading.addTarget name rest expecting = .ok next ∧
        next.expecting.Met rest) ↔
      literalFollows rest = true := by
  constructor
  · rintro ⟨next, adds, -⟩
    exact (addTarget_eq_ok_iff.mp adds).1
  · intro follows
    exact ⟨_, addTarget_eq_ok_iff.mpr ⟨follows, rfl⟩, met⟩

theorem Fresh.exists_takeForm_iff {reading : Reading}
    {before rest : List Token} {token : Token}
    (fresh : reading.Fresh before (token :: rest))
    (expects : reading.expecting = .form) :
    (∃ next, reading.takeForm before token rest = .ok next ∧
        next.expecting.Met rest) ↔
      TokenFits before token rest := by
  have balance : before.count .leftParen =
      before.count .rightParen + reading.calls.length := by
    simpa [expects, fresh.depth_eq] using fresh.opened_eq
  have noCallee := fresh.noCallee (by simp [expects])
  have headSolid : before.head? ≠ some .leftParen := by
    simpa [expects] using fresh.callee_iff
  cases token with
  | blank | newline | equal =>
      simp [Reading.takeForm, TokenFits, Expectation.Met, expects]
  | number | string =>
      simp [Reading.takeForm, TokenFits, Expectation.Met, addLiteral, expects]
  | identifier name =>
      simp [Reading.takeForm, TokenFits, noCallee, headSolid, expects,
        exists_addTarget_iff]
  | leftParen =>
      simp [Reading.takeForm, TokenFits, Expectation.Met]
  | rightParen =>
      cases callsEq : reading.calls with
      | nil => simp [Reading.takeForm, closeCall, TokenFits, callsEq, balance]
      | cons call calls =>
          simp [Reading.takeForm, closeCall, TokenFits, Expectation.Met, callsEq,
            balance, expects]
  | var =>
      cases callsEq : reading.calls with
      | nil =>
          simp [Reading.takeForm, addVar, TokenFits, Expectation.Met, callsEq,
            balance, fresh.depth_eq]
      | cons call calls =>
          simp [Reading.takeForm, addVar, TokenFits, Expectation.Met, callsEq,
            balance, fresh.depth_eq, expects]

theorem Fresh.exists_takeCallee_iff {reading : Reading}
    {before rest : List Token} {token : Token}
    (fresh : reading.Fresh before (token :: rest))
    (expects : reading.expecting = .callee) :
    (∃ next, reading.takeCallee token = .ok next ∧ next.expecting.Met rest) ↔
      (∃ name, token = .identifier name) ∧ TokenFits before token rest := by
  have opens := fresh.callee_iff.mp expects
  cases token <;>
    simp [Reading.takeCallee, openCall, TokenFits, Expectation.Met, opens]

theorem Fresh.exists_takeTarget_iff {reading : Reading}
    {before rest : List Token} {token : Token}
    (fresh : reading.Fresh before (token :: rest))
    (expects : reading.expecting = .target) :
    (∃ next, reading.takeTarget token rest = .ok next ∧
        next.expecting.Met rest) ↔
      (∃ name, nearestSolid (token :: rest) = some (.identifier name)) ∧
        TokenFits before token rest := by
  have headSolid : before.head? ≠ some .leftParen := by
    simpa [expects] using fresh.callee_iff
  cases token with
  | identifier name =>
      simp [Reading.takeTarget, TokenFits, headSolid, exists_addTarget_iff,
        Token.isTrivia]
  | _ =>
      simp [Reading.takeTarget, TokenFits, Expectation.Met, Token.isTrivia,
        expects]

theorem Fresh.exists_takeValue_iff {reading : Reading}
    {before rest : List Token} {token : Token}
    (fresh : reading.Fresh before (token :: rest))
    (expects : reading.expecting = .value) :
    (∃ next, reading.takeForm before token rest = .ok next ∧
        next.expecting.Met rest) ↔
      TokenFits before token rest := by
  have follows := fresh.valueFollows expects
  cases token with
  | blank | newline | number | string =>
      simp [Reading.takeForm, TokenFits, Expectation.Met, addLiteral, expects]
  | _ => simp [Token.isTrivia, Token.isLiteral] at follows

/-- A token can be taken when the expectation before it is met and the token
fits, and then what is expected after it can be met too. -/
theorem Fresh.exists_take_iff {reading : Reading} {before rest : List Token}
    {token : Token} (fresh : reading.Fresh before (token :: rest)) :
    (∃ next, reading.take before token rest = .ok next ∧
        next.expecting.Met rest) ↔
      reading.expecting.Met (token :: rest) ∧ TokenFits before token rest := by
  cases expecting : reading.expecting with
  | form =>
      simpa [Reading.take, expecting] using fresh.exists_takeForm_iff expecting
  | callee =>
      simpa [Reading.take, expecting, Expectation.Met] using
        fresh.exists_takeCallee_iff expecting
  | target =>
      simpa [Reading.take, expecting, Expectation.Met] using
        fresh.exists_takeTarget_iff expecting
  | value =>
      simpa [Reading.take, expecting] using fresh.exists_takeValue_iff expecting

theorem Fresh.exists_finish_iff {reading : Reading} {before : List Token}
    (fresh : reading.Fresh before []) :
    (∃ forms, reading.finish = .ok forms) ↔
      reading.expecting.Met [] ∧
        before.count .leftParen = before.count .rightParen := by
  have opened_eq := fresh.opened_eq
  rw [fresh.depth_eq] at opened_eq
  cases expecting : reading.expecting with
  | callee => simp [finish, expecting, Expectation.Met]
  | target => simp [finish, expecting, Expectation.Met]
  | value => simpa using fresh.valueFollows expecting
  | form =>
      cases callsEq : reading.calls with
      | nil => simp_all [finish]
      | cons call calls => simp_all [finish]

end Reading

/-- A fresh reading is accepted exactly when what it expects comes next and
all tokens to come fit. -/
theorem Reader.exists_run_iff {tokens : List Token} {reading : Reading}
    {before : List Token} (fresh : reading.Fresh before tokens) :
    (∃ forms, (run reading before tokens).1 = .ok forms) ↔
      reading.expecting.Met tokens ∧ TokensFit before tokens := by
  induction tokens generalizing reading before with
  | nil => exact fresh.exists_finish_iff
  | cons token rest induction =>
      rw [TokensFit, ← and_assoc, ← fresh.exists_take_iff]
      cases takes : reading.take before token rest with
      | error error => simp [run, takes]
      | ok next =>
          rw [run_cons_of_take takes, induction (fresh.take takes)]
          simp

theorem tokensFit_iff (before tokens : List Token) :
    TokensFit before tokens ↔
      (∀ taken token rest, tokens = taken ++ token :: rest →
          TokenFits (taken.reverse ++ before) token rest) ∧
        (tokens.reverse ++ before).count .leftParen =
          (tokens.reverse ++ before).count .rightParen := by
  induction tokens generalizing before with
  | nil => simp [TokensFit]
  | cons first tokens induction =>
      rw [TokensFit, induction, ← and_assoc]
      refine and_congr ?_ (by simp)
      constructor
      · rintro ⟨fits, others⟩ taken token rest split
        cases taken with
        | nil =>
            cases split
            exact fits
        | cons head taken =>
            cases split
            simpa using others taken token rest rfl
      · intro fits
        refine ⟨fits [] first tokens rfl, ?_⟩
        rintro taken token rest rfl
        simpa using fits (first :: taken) token rest rfl

/-- Parentheses that close something at each right parenthesis are balanced in
every list of first tokens. -/
theorem count_rightParen_le_of_fit {before tokens : List Token}
    (fit : ∀ taken token rest, tokens = taken ++ token :: rest →
      TokenFits (taken.reverse ++ before) token rest)
    (start : before.count .rightParen ≤ before.count .leftParen)
    {taken rest : List Token} (split : tokens = taken ++ rest) :
    (taken.reverse ++ before).count .rightParen ≤
      (taken.reverse ++ before).count .leftParen := by
  induction taken generalizing before tokens with
  | nil => simpa using start
  | cons token taken induction =>
      subst split
      have first : TokenFits before token (taken ++ rest) :=
        fit [] token (taken ++ rest) rfl
      have later : ∀ others next remaining,
          taken ++ rest = others ++ next :: remaining →
            TokenFits (others.reverse ++ token :: before) next remaining := by
        intro others next remaining same
        simpa using fit (token :: others) next remaining (by simp [same])
      have stays : (token :: before).count .rightParen ≤
          (token :: before).count .leftParen := by
        cases token with
        | rightParen =>
            simp only [TokenFits] at first
            simp only [List.count_cons_self, ne_eq, reduceCtorEq,
              not_false_eq_true, List.count_cons_of_ne]
            omega
        | leftParen => simpa using Nat.le_succ_of_le start
        | _ => simpa using start
      simpa using induction later stays rfl

/-- The lists of tokens that form a program. -/
structure Grammatical (tokens : List Token) : Prop where
  /-- A name follows each left parenthesis at once. -/
  callee : ∀ before after, tokens = before ++ .leftParen :: after →
    ∃ name rest, after = .identifier name :: rest
  /-- No parenthesis is closed before it is opened. -/
  closed_le : ∀ before after, tokens = before ++ after →
    before.count .rightParen ≤ before.count .leftParen
  /-- Every parenthesis is closed. -/
  closed_eq : tokens.count .rightParen = tokens.count .leftParen
  /-- A number or a string follows, after blanks and line breaks, each name that
  is no callee. -/
  literal : ∀ before name after, tokens = before ++ .identifier name :: after →
    before.getLast? ≠ some .leftParen →
      ∃ layout literal rest, after = layout ++ literal :: rest ∧
        (∀ token ∈ layout, token = .blank ∨ token = .newline) ∧
        ((∃ digits, literal = .number digits) ∨
          ∃ content, literal = .string content)
  /-- A name follows, after blanks and line breaks, each keyword outside all
  parentheses. -/
  target : ∀ before after, tokens = before ++ .var :: after →
    before.count .leftParen = before.count .rightParen →
      ∃ layout name rest, after = layout ++ .identifier name :: rest ∧
        ∀ token ∈ layout, token = .blank ∨ token = .newline

theorem literalFollows_iff (tokens : List Token) :
    literalFollows tokens = true ↔
      ∃ layout literal rest, tokens = layout ++ literal :: rest ∧
        (∀ token ∈ layout, token = .blank ∨ token = .newline) ∧
        ((∃ digits, literal = .number digits) ∨
          ∃ content, literal = .string content) := by
  simp only [literalFollows, Option.any_eq_true, nearestSolid_eq_some_iff,
    Token.isTrivia_iff, Token.isLiteral_iff]
  constructor
  · rintro ⟨literal, ⟨-, layout, rest, tokensEq, isLayout⟩, isLiteral⟩
    exact ⟨layout, literal, rest, tokensEq, isLayout, isLiteral⟩
  · rintro ⟨layout, literal, rest, tokensEq, isLayout, isLiteral⟩
    have solid := isTrivia_eq_false_of_isLiteral
      (Token.isLiteral_iff.mpr isLiteral)
    exact ⟨literal, ⟨solid, layout, rest, tokensEq, isLayout⟩, isLiteral⟩

theorem exists_nearestSolid_eq_identifier_iff (tokens : List Token) :
    (∃ name, nearestSolid tokens = some (.identifier name)) ↔
      ∃ layout name rest, tokens = layout ++ .identifier name :: rest ∧
        ∀ token ∈ layout, token = .blank ∨ token = .newline := by
  simp only [nearestSolid_eq_some_iff, Token.isTrivia_iff]
  constructor
  · rintro ⟨name, -, layout, rest, tokensEq, isLayout⟩
    exact ⟨layout, name, rest, tokensEq, isLayout⟩
  · rintro ⟨layout, name, rest, tokensEq, isLayout⟩
    exact ⟨name, rfl, layout, rest, tokensEq, isLayout⟩

theorem Grammatical.tokensFit {tokens : List Token}
    (grammatical : Grammatical tokens) : TokensFit [] tokens := by
  rw [tokensFit_iff]
  refine ⟨?_, by simpa using grammatical.closed_eq.symm⟩
  intro taken token rest split
  rw [List.append_nil]
  cases token with
  | leftParen => exact grammatical.callee taken rest split
  | rightParen =>
      have closed := grammatical.closed_le (taken ++ [.rightParen]) rest
        (by simp [split])
      simp only [TokenFits, List.count_reverse]
      simp at closed
      omega
  | identifier name =>
      intro noCallee
      rw [literalFollows_iff]
      exact grammatical.literal taken name rest split (by simpa using noCallee)
  | var =>
      intro balanced
      rw [exists_nearestSolid_eq_identifier_iff]
      exact grammatical.target taken rest split (by simpa using balanced)
  | _ => trivial

theorem grammatical_of_tokensFit {tokens : List Token}
    (fit : TokensFit [] tokens) : Grammatical tokens := by
  rw [tokensFit_iff] at fit
  obtain ⟨fits, balanced⟩ := fit
  refine ⟨?_, ?_, ?_, ?_, ?_⟩
  · intro before after split
    exact fits before .leftParen after split
  · intro before after split
    simpa using count_rightParen_le_of_fit fits (by simp) split
  · simpa using balanced.symm
  · intro before name after split noCallee
    rw [← literalFollows_iff]
    exact fits before (.identifier name) after split (by simpa using noCallee)
  · intro before after split outside
    rw [← exists_nearestSolid_eq_identifier_iff]
    exact fits before .var after split (by simpa using outside)

theorem grammatical_of_readForms {tokens : List Token} {forms : List Form}
    (accepts : readForms tokens = .ok forms) : Grammatical tokens :=
  grammatical_of_tokensFit
    ((Reader.exists_run_iff (Reading.fresh_start tokens)).mp ⟨forms, accepts⟩).2

theorem Grammatical.nearestSolid_reverse {tokens : List Token}
    (grammatical : Grammatical tokens) :
    nearestSolid tokens.reverse ≠ some .leftParen := by
  intro found
  obtain ⟨-, layout, before, split, isLayout⟩ :=
    nearestSolid_eq_some_iff.mp found
  have tokensEq : tokens = before.reverse ++ .leftParen :: layout.reverse := by
    rw [← List.reverse_reverse tokens, split]
    simp
  obtain ⟨name, rest, follows⟩ := grammatical.callee _ _ tokensEq
  have member : .identifier name ∈ layout := by
    rw [← List.mem_reverse, follows]
    simp
  simpa [Token.isTrivia] using isLayout _ member

/-- A list of tokens is accepted exactly when it is grammatical. -/
theorem exists_readForms_iff_grammatical (tokens : List Token) :
    (∃ forms, readForms tokens = .ok forms) ↔ Grammatical tokens := by
  constructor
  · rintro ⟨forms, accepts⟩
    exact grammatical_of_readForms accepts
  · intro grammatical
    have accepted := Reader.exists_run_iff (Reading.fresh_start tokens)
    exact accepted.mpr ⟨Expectation.met_form tokens, grammatical.tokensFit⟩

end ParenCall
