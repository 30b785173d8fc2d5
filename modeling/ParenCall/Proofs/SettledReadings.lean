import Mathlib.Logic.Function.Iterate
import ParenCall.Proofs.FreshReadings

/-!
# Settled readings

A reader that is asked again goes on from where the reading before it stopped.
Its failures are of two kinds.  A token that is unexpected, or a target without
a literal, is not taken: the next reading begins at this very token and fails
on it again, although it no longer knows which calls were open or whether a
declaration was being read.  Every other failure comes after at least one token
has been taken.

So a reader either stays where it is or moves forward, and once there have been
as many readings as there are tokens, it stays where it is.
-/

namespace ParenCall

/-- Whether the token that an error is about has not been taken. -/
def ReadError.IsLasting : ReadError → Prop
  | .unexpectedToken _ | .expectedLiteral _ _ => True
  | .expectedCallee _ | .expectedTarget _ | .unterminatedCall _ => False

theorem isLasting_of_checkTarget {name : String} {rest : List Token}
    {error : ReadError} (fails : checkTarget name rest = .error error) :
    error.IsLasting := by
  unfold checkTarget at fails
  split at fails
  · split at fails
    · cases fails
    · cases fails
      trivial
  · cases fails
    trivial

namespace Reading

theorem addTarget_eq_error_iff {reading : Reading} {name : String}
    {rest : List Token} {expecting : Expectation} {error : ReadError} :
    reading.addTarget name rest expecting = .error error ↔
      checkTarget name rest = .error error := by
  unfold addTarget
  cases checkTarget name rest <;> simp

theorem closeCall_eq_error_iff {reading : Reading} {error : ReadError} :
    reading.closeCall = .error error ↔
      reading.calls = [] ∧ error = .unexpectedToken (some .rightParen) := by
  unfold closeCall
  cases reading.calls <;> simp [eq_comm]

/-- A token that begins no form is either a name, which has a left parenthesis
before it or no literal after it, or a parenthesis that closes no call. -/
theorem takeForm_eq_error_iff {reading : Reading} {before rest : List Token}
    {token : Token} {error : ReadError} :
    reading.takeForm before token rest = .error error ↔
      (∃ name, token = .identifier name ∧
        ((nearestSolid before = some .leftParen ∧
            error = .unexpectedToken (some .identifier)) ∨
          (nearestSolid before ≠ some .leftParen ∧
            checkTarget name rest = .error error))) ∨
      (token = .rightParen ∧ reading.calls = [] ∧
        error = .unexpectedToken (some .rightParen)) := by
  cases token with
  | identifier name =>
      by_cases callee : nearestSolid before = some .leftParen
      · simp [takeForm, callee, eq_comm]
      · simp [takeForm, callee, addTarget_eq_error_iff]
  | rightParen => simp [takeForm, closeCall_eq_error_iff]
  | _ => simp [takeForm]

theorem isLasting_of_takeForm {reading : Reading} {before rest : List Token}
    {token : Token} {error : ReadError}
    (fails : reading.takeForm before token rest = .error error) :
    error.IsLasting := by
  rcases takeForm_eq_error_iff.mp fails with
    ⟨name, -, ⟨-, rfl⟩ | ⟨-, checked⟩⟩ | ⟨-, -, rfl⟩
  · trivial
  · exact isLasting_of_checkTarget checked
  · trivial

/-- The name of a declaration is never right after a left parenthesis. -/
def AwaitsTargetApart (reading : Reading) (before : List Token) : Prop :=
  reading.expecting = .target → nearestSolid before ≠ some .leftParen

theorem awaitsTargetApart_start (depth : Nat) (before : List Token) :
    (start depth).AwaitsTargetApart before := by
  intro expects
  cases expects

/-- Only the keyword, or layout after it, leads to where a declared name is
expected. -/
theorem AwaitsTargetApart.take {reading next : Reading}
    {before rest : List Token} {token : Token}
    (apart : reading.AwaitsTargetApart before)
    (takes : reading.take before token rest = .ok next) :
    next.AwaitsTargetApart (token :: before) := by
  intro expects
  cases step_of_take takes with
  | trivia isTrivia => simpa [isTrivia] using apart expects
  | literal _ admits => simp [admits] at expects
  | opening => cases expects
  | _ => simp [Token.isTrivia]

theorem take_start (depth : Nat) (before : List Token) (token : Token)
    (rest : List Token) :
    (start depth).take before token rest =
      (start depth).takeForm before token rest :=
  rfl

/-- A lasting failure needs neither the open calls nor the declaration in which
it was met first. -/
theorem take_start_of_isLasting {reading : Reading} {before rest : List Token}
    {token : Token} {error : ReadError}
    (apart : reading.AwaitsTargetApart before)
    (fails : reading.take before token rest = .error error)
    (lasting : error.IsLasting) (depth : Nat) :
    reading.expecting ≠ .callee ∧
      (start depth).take before token rest = .error error := by
  rw [take_start, takeForm_eq_error_iff]
  unfold Reading.take at fails
  cases expecting : reading.expecting with
  | form | value =>
      rw [expecting] at fails
      rcases takeForm_eq_error_iff.mp fails with
        named | ⟨isParen, -, errorEq⟩
      · exact ⟨by simp, Or.inl named⟩
      · exact ⟨by simp, Or.inr ⟨isParen, rfl, errorEq⟩⟩
  | callee =>
      rw [expecting] at fails
      cases token with
      | identifier name => cases fails
      | _ =>
          cases fails
          cases lasting
  | target =>
      rw [expecting] at fails
      cases token with
      | identifier name =>
          have checked := addTarget_eq_error_iff.mp fails
          exact ⟨by simp,
            Or.inl ⟨name, rfl, Or.inr ⟨apart expecting, checked⟩⟩⟩
      | blank | newline => cases fails
      | _ =>
          cases fails
          cases lasting

/-- What is missing at the end of the tokens: what the reading expects there, or
the end of the innermost call. -/
theorem finish_error_cases {reading : Reading} {error : ReadError}
    (fails : reading.finish = .error error) :
    (reading.expecting = .callee ∧ error = .expectedCallee none) ∨
      (reading.expecting = .target ∧ error = .expectedTarget none) ∨
      (reading.expecting = .value ∧ error = .unexpectedToken none) ∨
      (reading.expecting = .form ∧ ∃ call calls,
        reading.calls = call :: calls ∧
          error = .unterminatedCall call.callee) := by
  cases expecting : reading.expecting with
  | form =>
      cases callsEq : reading.calls with
      | nil => simp [finish, expecting, callsEq] at fails
      | cons call calls =>
          simpa [finish, expecting, callsEq, eq_comm] using fails
  | callee | target | value => simpa [finish, expecting, eq_comm] using fails

/-- No failure at the end of the tokens lasts: a declaration that lacks its
literal there has failed at its name. -/
theorem AwaitsLiteral.not_isLasting_of_finish {reading : Reading}
    {error : ReadError} (awaits : reading.AwaitsLiteral [])
    (fails : reading.finish = .error error) : ¬ error.IsLasting := by
  rcases finish_error_cases fails with
    ⟨-, rfl⟩ | ⟨-, rfl⟩ | ⟨expects, -⟩ | ⟨-, call, calls, -, rfl⟩
  · exact id
  · exact id
  · simpa using awaits expects
  · exact id

end Reading

namespace Reader

/-- The number of tokens taken. -/
def cursor (reader : Reader) : Nat :=
  reader.before.length

/-- Whether a reader gets to another by taking `consumed`. -/
structure Passes (entry exit : Reader) (consumed : List Token) : Prop where
  after_eq : entry.after = consumed ++ exit.after
  before_eq : exit.before = consumed.reverse ++ entry.before

theorem Passes.refl (entry : Reader) : entry.Passes entry [] :=
  ⟨rfl, rfl⟩

theorem Passes.trans {entry next exit : Reader} {first second : List Token}
    (passesFirst : entry.Passes next first)
    (passesSecond : next.Passes exit second) :
    entry.Passes exit (first ++ second) where
  after_eq := by
    rw [passesFirst.after_eq, passesSecond.after_eq, List.append_assoc]
  before_eq := by
    rw [passesSecond.before_eq, passesFirst.before_eq, List.reverse_append,
      List.append_assoc]

theorem Passes.cursor_eq {entry exit : Reader} {consumed : List Token}
    (passes : entry.Passes exit consumed) :
    exit.cursor = entry.cursor + consumed.length := by
  simp [cursor, passes.before_eq, Nat.add_comm]

/-- The reader after a number of readings. -/
def afterReads (reader : Reader) (times : Nat) : Reader :=
  (fun current : Reader => current.read.2)^[times] reader

theorem afterReads_succ (reader : Reader) (times : Nat) :
    reader.afterReads (times + 1) = (reader.afterReads times).read.2 :=
  Function.iterate_succ_apply' _ _ _

theorem afterReads_add (reader : Reader) (first second : Nat) :
    reader.afterReads (first + second) =
      (reader.afterReads first).afterReads second := by
  rw [Nat.add_comm]
  exact Function.iterate_add_apply _ _ _ _

/-- Whether a reader gives an answer and stays where it is. -/
def Settled (reader : Reader) (answer : Except ReadError (List Form)) : Prop :=
  reader.read = (answer, reader)

/-- Whether an answer is one that readers settle on. -/
def IsFinalAnswer (answer : Except ReadError (List Form)) : Prop :=
  answer = .ok [] ∨ ∃ error : ReadError, error.IsLasting ∧ answer = .error error

theorem settled_of_after_nil {reader : Reader} (atEnd : reader.after = []) :
    reader.Settled (.ok []) := by
  unfold Settled read
  rw [atEnd]
  cases reader
  simp_all [run, Reading.finish, Reading.start, Reading.forms]

/-- A reading that fails on a token without taking it settles the reader. -/
theorem settled_of_run {reading : Reading} {before tokens : List Token}
    {error : ReadError} (apart : reading.AwaitsTargetApart before)
    (awaits : reading.AwaitsLiteral tokens)
    (fails : (run reading before tokens).1 = .error error)
    (lasting : error.IsLasting) :
    (run reading before tokens).2.Settled (.error error) := by
  induction tokens generalizing reading before with
  | nil => exact absurd lasting (awaits.not_isLasting_of_finish fails)
  | cons token rest induction =>
      cases takes : reading.take before token rest with
      | ok next =>
          simp only [run, takes] at fails ⊢
          exact induction (apart.take takes) (awaits.take takes) fails
      | error found =>
          simp only [run, takes, Except.error.injEq] at fails
          subst fails
          obtain ⟨notCallee, again⟩ := Reading.take_start_of_isLasting apart
            takes lasting reading.depth
          have begins : (Reading.start reading.depth).expecting ≠ .callee := by
            simp [Reading.start]
          have stays : (run reading before (token :: rest)).2 =
              ⟨before, token :: rest, reading.depth⟩ := by
            simp [run, takes, notCallee]
          rw [stays]
          simp only [Settled, read, run, again, begins, if_false]
          rfl

theorem settled_of_isLasting {reader : Reader} {error : ReadError}
    (fails : reader.read.1 = .error error) (lasting : error.IsLasting) :
    reader.read.2.Settled (.error error) :=
  settled_of_run (Reading.awaitsTargetApart_start _ _)
    (Reading.awaitsLiteral_of_expecting (by simp [Reading.start]) _) fails
    lasting

/-- A reading moves forward only. -/
theorem exists_passes_run (reading : Reading) (before tokens : List Token) :
    ∃ consumed, Passes ⟨before, tokens, reading.depth⟩
      (run reading before tokens).2 consumed := by
  induction tokens generalizing reading before with
  | nil => exact ⟨[], .refl _⟩
  | cons token rest induction =>
      cases takes : reading.take before token rest with
      | ok next =>
          obtain ⟨consumed, passes⟩ := induction next (token :: before)
          simp only [run, takes]
          exact ⟨[token] ++ consumed, .trans ⟨rfl, rfl⟩ passes⟩
      | error error =>
          simp only [run, takes]
          split
          · exact ⟨[token], rfl, rfl⟩
          · exact ⟨[], .refl _⟩

theorem cursor_le_run (reading : Reading) (before tokens : List Token) :
    before.length ≤ (run reading before tokens).2.cursor := by
  obtain ⟨consumed, passes⟩ := exists_passes_run reading before tokens
  rw [passes.cursor_eq]
  exact Nat.le_add_right _ _

/-- The tokens taken and the tokens to come are as many as before. -/
theorem length_run (reading : Reading) (before tokens : List Token) :
    (run reading before tokens).2.cursor +
        (run reading before tokens).2.after.length =
      before.length + tokens.length := by
  obtain ⟨consumed, passes⟩ := exists_passes_run reading before tokens
  have total : tokens.length = consumed.length +
      (run reading before tokens).2.after.length := by
    rw [← List.length_append, ← passes.after_eq]
  rw [passes.cursor_eq, total, cursor, Nat.add_assoc]

theorem after_run_of_ok {reading : Reading} {before tokens : List Token}
    {forms : List Form} (accepts : (run reading before tokens).1 = .ok forms) :
    (run reading before tokens).2.after = [] := by
  induction tokens generalizing reading before with
  | nil => rfl
  | cons token rest induction =>
      cases takes : reading.take before token rest with
      | ok next =>
          simp only [run, takes] at accepts ⊢
          exact induction accepts
      | error error =>
          simp only [run, takes] at accepts
          cases accepts

/-- A reading whose failure does not last has taken a token. -/
theorem cursor_lt_read {reader : Reader} {error : ReadError}
    (fails : reader.read.1 = .error error) (passes : ¬ error.IsLasting) :
    reader.cursor < reader.read.2.cursor := by
  unfold read at fails ⊢
  cases remains : reader.after with
  | nil =>
      rw [remains] at fails
      cases fails
  | cons token rest =>
      rw [remains] at fails
      cases takes : (Reading.start reader.depth).take reader.before token rest with
      | ok next =>
          have later := cursor_le_run next (token :: reader.before) rest
          simp only [run, takes, List.length_cons] at later ⊢
          exact later
      | error found =>
          -- The first token is taken as the beginning of a form.
          simp only [run, takes, Except.error.injEq] at fails
          subst fails
          exact absurd (Reading.isLasting_of_takeForm takes) passes

/-- A reading settles the reader or moves it forward. -/
theorem settled_or_cursor_lt (reader : Reader) :
    (∃ answer, IsFinalAnswer answer ∧ reader.read.2.Settled answer) ∨
      reader.cursor < reader.read.2.cursor := by
  cases answered : reader.read.1 with
  | ok forms =>
      have settled := settled_of_after_nil (after_run_of_ok answered)
      exact Or.inl ⟨_, Or.inl rfl, settled⟩
  | error error =>
      by_cases lasting : error.IsLasting
      · have settled := settled_of_isLasting answered lasting
        exact Or.inl ⟨_, Or.inr ⟨error, lasting, rfl⟩, settled⟩
      · exact Or.inr (cursor_lt_read answered lasting)

theorem Settled.afterReads {reader : Reader}
    {answer : Except ReadError (List Form)} (settled : reader.Settled answer)
    (times : Nat) : reader.afterReads times = reader := by
  apply Function.iterate_fixed
  rw [settled]

theorem Settled.reads {reader : Reader}
    {answer : Except ReadError (List Form)} (settled : reader.Settled answer)
    (times : Nat) : reader.reads times = List.replicate times answer := by
  induction times with
  | zero => rfl
  | succ times induction =>
      rw [Reader.reads, settled, induction, List.replicate_succ]

theorem reads_add (reader : Reader) (first second : Nat) :
    reader.reads (first + second) =
      reader.reads first ++ (reader.afterReads first).reads second := by
  induction first generalizing reader with
  | zero => simp [reads, afterReads]
  | succ first induction =>
      rw [Nat.succ_add, reads, induction, reads, List.cons_append]
      rfl

theorem length_afterReads (tokens : List Token) (times : Nat) :
    ((ofTokens tokens).afterReads times).cursor +
        ((ofTokens tokens).afterReads times).after.length =
      tokens.length := by
  induction times with
  | zero => simp [afterReads, ofTokens, cursor]
  | succ times induction =>
      rw [afterReads_succ, ← induction]
      exact length_run _ _ _

/-- A reader that has not settled has taken a token in every reading. -/
theorem settled_or_le_cursor (reader : Reader) (times : Nat) :
    (∃ answer, IsFinalAnswer answer ∧
        (reader.afterReads times).Settled answer) ∨
      times ≤ (reader.afterReads times).cursor := by
  induction times with
  | zero => exact Or.inr (Nat.zero_le _)
  | succ times induction =>
      rw [afterReads_succ]
      rcases induction with ⟨answer, isFinal, settled⟩ | advanced
      · have stays : (reader.afterReads times).read.2 =
            reader.afterReads times := by
          rw [settled]
        rw [stays]
        exact Or.inl ⟨answer, isFinal, settled⟩
      · rcases settled_or_cursor_lt (reader.afterReads times) with
          settles | advances
        · exact Or.inl settles
        · right
          omega

theorem exists_settled (tokens : List Token) :
    ∃ answer, IsFinalAnswer answer ∧
      ((ofTokens tokens).afterReads tokens.length).Settled answer := by
  rcases settled_or_le_cursor (ofTokens tokens) tokens.length with
    settled | advanced
  · exact settled
  · have total := length_afterReads tokens tokens.length
    have atEnd :
        ((ofTokens tokens).afterReads tokens.length).after = [] := by
      apply List.length_eq_zero_iff.mp
      omega
    exact ⟨_, Or.inl rfl, settled_of_after_nil atEnd⟩

/-- Successive readings with one reader settle.  A failure on a token that is
not taken is repeated by every later reading, which moves nothing; every other
failure has taken a token; and after as many readings as there are tokens all
answers are the same. -/
theorem reads_settle (tokens : List Token) :
    (∀ (earlier later : Nat) (error : ReadError),
        ((ofTokens tokens).afterReads earlier).read.1 = .error error →
        error.IsLasting → earlier < later →
          ((ofTokens tokens).afterReads later).Settled (.error error)) ∧
      (∀ (times : Nat) (error : ReadError),
        ((ofTokens tokens).afterReads times).read.1 = .error error →
        ¬ error.IsLasting →
          ((ofTokens tokens).afterReads times).cursor <
            ((ofTokens tokens).afterReads (times + 1)).cursor) ∧
      ∃ answer, IsFinalAnswer answer ∧
        ∀ more, (ofTokens tokens).reads (tokens.length + more) =
          (ofTokens tokens).reads tokens.length ++
            List.replicate more answer := by
  refine ⟨?_, ?_, ?_⟩
  · intro earlier later error fails lasting before
    have settled := settled_of_isLasting fails lasting
    rw [← afterReads_succ] at settled
    obtain ⟨more, rfl⟩ := Nat.exists_eq_add_of_lt before
    have split : earlier + more + 1 = earlier + 1 + more := by omega
    rw [split, afterReads_add, settled.afterReads]
    exact settled
  · intro times error fails passes
    rw [afterReads_succ]
    exact cursor_lt_read fails passes
  · obtain ⟨answer, isFinal, settled⟩ := exists_settled tokens
    refine ⟨answer, isFinal, ?_⟩
    intro more
    rw [reads_add, settled.reads]

theorem reads_settle_target_without_literal :
    (((ofTokens [.leftParen, .blank, .leftParen, .identifier "f", .var,
        .identifier "x"]).afterReads 0).read.1 =
          .error (.expectedCallee (some .blank)) ∧
        ((ofTokens [.leftParen, .blank, .leftParen, .identifier "f", .var,
          .identifier "x"]).afterReads 0).cursor <
        ((ofTokens [.leftParen, .blank, .leftParen, .identifier "f", .var,
          .identifier "x"]).afterReads 1).cursor) ∧
      ((ofTokens [.leftParen, .blank, .leftParen, .identifier "f", .var,
        .identifier "x"]).afterReads 1).read.1 =
          .error (.expectedLiteral "x" none) ∧
        ((ofTokens [.leftParen, .blank, .leftParen, .identifier "f", .var,
          .identifier "x"]).afterReads 5).Settled
            (.error (.expectedLiteral "x" none)) := by
  refine ⟨⟨rfl, ?_⟩, rfl, ?_⟩
  · exact (reads_settle _).2.1 0 _ rfl id
  · exact (reads_settle _).1 1 5 _ rfl trivial (by decide)

end Reader

end ParenCall
