import ParenCall.Proofs.FormByForm
import ParenCall.Proofs.UnclosedParentheses

/-!
# Enclosing calls

The depth of a reader is the number of calls that it has entered and not left.
A form that is read leaves every call that it enters.  A failure leaves none:
the calls that were open in front of it stay entered for every later reading
with the same reader.  These are the calls whose callee is among the tokens
taken and whose right parenthesis is not, so they can be counted in the tokens.

During a reading, the depth exceeds that of its beginning by the number of its
open calls.  So a call that is closed has added to the depth, and the depth
never falls from one reading to the next.
-/

namespace ParenCall

section Counting

/-- Whether what follows a left parenthesis at once is a callee. -/
def isCallee : Option Token → Bool
  | some (.identifier _) => true
  | _ => false

/-- The number of calls whose callee is among the tokens and whose right
parenthesis is not. -/
def openCalls (tokens : List Token) : Nat :=
  (openings tokens).countP isCallee

theorem Reading.countP_openings (reading : Reading) :
    reading.openings.countP isCallee = reading.calls.length := by
  by_cases expects : reading.expecting = .callee
  · simp [Reading.openings, expects, isCallee]
  · simp [Reading.openings, expects, isCallee]

/-- A token that is refused in the place of a callee neither opens a call nor
closes one. -/
theorem Reading.countP_openingsAfter {reading : Reading}
    (expects : reading.expecting = .callee) {token : Token}
    (noName : ∀ name, token ≠ .identifier name) :
    (openingsAfter token reading.openings).countP isCallee =
      reading.calls.length := by
  cases token with
  | identifier name => exact absurd rfl (noName name)
  | _ => simp [openingsAfter, Reading.openings, expects, isCallee]

end Counting

namespace Reading

/-- What a token does to the open calls and the depth. -/
theorem enclosing_take {reading next : Reading} {before rest : List Token}
    {token : Token} (takes : reading.take before token rest = .ok next) :
    (next.calls = reading.calls ∧ next.depth = reading.depth) ∨
      (∃ callee, next = reading.openCall callee) ∨
      ∃ call, reading.calls = call :: next.calls ∧
        next.depth = reading.depth - 1 := by
  cases step_of_take takes with
  | trivia | equal | target | declared | opening => exact Or.inl ⟨rfl, rfl⟩
  | literal | var =>
      left
      simp
  | @callee name => exact Or.inr (Or.inl ⟨name, rfl⟩)
  | @closing call _ _ callsEq => exact Or.inr (Or.inr ⟨call, callsEq, rfl⟩)

/-- Only a name opens a call. -/
theorem not_name_of_refused {reading : Reading} {before rest : List Token}
    {token : Token} {error : ReadError} (expects : reading.expecting = .callee)
    (fails : reading.take before token rest = .error error) (name : String) :
    token ≠ .identifier name := by
  rintro rfl
  simp [take, takeCallee, expects] at fails

end Reading

namespace Reader

/-- The depth has grown by the calls that are open, so one of them can be left
without falling below the depth of the beginning. -/
theorem Meets.depth_eq {reader : Reader} {reading : Reading}
    {before after : List Token} (met : reader.Meets reading before after) :
    reading.depth = reader.depth + reading.calls.length := by
  induction met with
  | start => rfl
  | take _ takes depth_eq =>
      rcases Reading.enclosing_take takes with
        ⟨sameCalls, sameDepth⟩ | ⟨callee, rfl⟩ | ⟨call, callsEq, lessDepth⟩
      · rw [sameCalls, sameDepth, depth_eq]
      · simp only [Reading.openCall, List.length_cons]
        omega
      · simp only [callsEq, List.length_cons] at depth_eq
        omega

/-- A reading leaves as many calls entered as are open in the tokens that it has
taken. -/
theorem exists_passes_read (reader : Reader) :
    ∃ consumed, reader.Passes reader.read.2 consumed ∧
      reader.read.2.depth = reader.depth + openCalls consumed := by
  obtain ⟨last, before, after, met, stops⟩ :=
    (Meets.start : reader.Meets _ _ _).exists_last
  obtain ⟨taken, passes, same⟩ := met.exists_taken
  have depth_eq := met.depth_eq
  have counted : openCalls taken = last.calls.length := by
    rw [openCalls, ← same, Reading.countP_openings]
  rw [met.read_eq]
  cases after with
  | nil => exact ⟨taken, passes, by simpa [run, counted] using depth_eq⟩
  | cons token rest =>
      obtain ⟨error, fails⟩ := stops token rest rfl
      by_cases expects : last.expecting = .callee
      · -- The refused token has been taken too.
        have noName := Reading.not_name_of_refused expects fails
        have recounted : openCalls (taken ++ [token]) = last.calls.length := by
          rw [openCalls, openings_concat, ← same,
            Reading.countP_openingsAfter expects noName]
        refine ⟨taken ++ [token], ?_, ?_⟩
        · simp only [run, fails, expects, if_true]
          exact passes.trans ⟨rfl, rfl⟩
        · simpa [run, fails, expects, recounted] using depth_eq
      · rw [run_eq_error expects fails]
        exact ⟨taken, passes, by rw [counted, ← depth_eq]⟩

/-- Whether the tokens before a place and those after it are a list of tokens,
cut after as many tokens as have been taken. -/
structure CutsAt (tokens before after : List Token) : Prop where
  length_le : before.length ≤ tokens.length
  before_eq : before = (tokens.take before.length).reverse
  after_eq : after = tokens.drop before.length

theorem cutsAt_iff (tokens before after : List Token) :
    CutsAt tokens before after ↔ tokens = before.reverse ++ after := by
  constructor
  · intro cuts
    have taken : tokens.take before.length = before.reverse :=
      (List.reverse_eq_iff.mpr cuts.before_eq).symm
    calc
      tokens = tokens.take before.length ++ tokens.drop before.length :=
        (List.take_append_drop _ _).symm
      _ = before.reverse ++ after := by rw [taken, ← cuts.after_eq]
  · rintro rfl
    constructor <;> simp

theorem Passes.cutsAt {entry exit : Reader} {consumed : List Token}
    (passes : entry.Passes exit consumed) {tokens : List Token}
    (cuts : CutsAt tokens entry.before entry.after) :
    CutsAt tokens exit.before exit.after := by
  rw [cutsAt_iff] at cuts ⊢
  rw [cuts, passes.after_eq, passes.before_eq]
  simp

theorem cutsAt_afterReads (tokens : List Token) (times : Nat) :
    CutsAt tokens ((ofTokens tokens).afterReads times).before
      ((ofTokens tokens).afterReads times).after := by
  induction times with
  | zero => simp [cutsAt_iff, afterReads, ofTokens]
  | succ times induction =>
      rw [afterReads_succ]
      obtain ⟨consumed, passes, -⟩ := exists_passes_read _
      exact passes.cutsAt induction

/-- What a reader in a list of tokens keeps account of in its next reading. -/
structure KeepsAccount (tokens : List Token) (reader : Reader) : Prop where
  /-- At every token, those taken are the first ones of the list, and the depth
  has grown by the calls that are open. -/
  met : ∀ reading before after, reader.Meets reading before after →
    CutsAt tokens before after ∧
      reading.depth = reader.depth + reading.calls.length
  /-- The reading comes to an end, and it can be told form by form. -/
  told : ∀ answer exit, (Scope.forms .program).Reads reader answer exit ↔
    reader.read = (answer, exit)
  /-- A reading without a failure takes all tokens and leaves all calls that it
  enters. -/
  ok : ∀ forms, reader.read.1 = .ok forms →
    reader.read.2.cursor = tokens.length ∧
      reader.read.2.depth = reader.depth
  /-- A failure leaves the calls entered that are open in the tokens taken. -/
  error : ∀ error, reader.read.1 = .error error →
    ∃ consumed, reader.Passes reader.read.2 consumed ∧
      reader.read.2.depth = reader.depth + openCalls consumed
  depth_le : reader.depth ≤ reader.read.2.depth

theorem depth_read_of_ok {reader : Reader} {forms : List Form}
    (accepts : reader.read.1 = .ok forms) :
    reader.read.2.depth = reader.depth := by
  have told := (reads_program_iff reader reader.read.2 (.ok forms)).mpr
    (Prod.ext accepts rfl)
  exact told.depth_eq_of_ok

theorem keepsAccount_of_cutsAt {tokens : List Token} {reader : Reader}
    (cuts : CutsAt tokens reader.before reader.after) :
    reader.KeepsAccount tokens where
  met := by
    intro reading before after met
    obtain ⟨taken, passes, -⟩ := met.exists_taken
    exact ⟨passes.cutsAt cuts, met.depth_eq⟩
  told := fun answer exit => reads_program_iff reader exit answer
  ok := by
    intro forms accepts
    obtain ⟨consumed, passes, -⟩ := reader.exists_passes_read
    have atEnd := passes.cutsAt cuts
    refine ⟨?_, depth_read_of_ok accepts⟩
    have nothingLeft : reader.read.2.after = [] := after_run_of_ok accepts
    rw [(cutsAt_iff _ _ _).mp atEnd, nothingLeft]
    simp [cursor]
  error := fun _ _ => reader.exists_passes_read
  depth_le := by
    obtain ⟨consumed, -, depth_eq⟩ := reader.exists_passes_read
    omega

/-- A form keeps account of the tokens that it takes.  Its failure is that of a
reading which begins at it, so the calls left open are counted in the same
way. -/
theorem exists_passes_form {entry exit : Reader}
    {answer : Except ReadError (List Form)}
    (reads : Scope.form.Reads entry answer exit) :
    ∃ consumed, entry.Passes exit consumed ∧
      (∀ forms, answer = .ok forms →
        entry.cursor < exit.cursor ∧ exit.depth = entry.depth) ∧
      ∀ error, answer = .error error →
        exit.depth = entry.depth + openCalls consumed := by
  cases answer with
  | ok forms =>
      obtain ⟨consumed, nonempty, passes⟩ := reads.exists_passes_of_ok
      refine ⟨consumed, passes, ?_, by simp⟩
      intro _ _
      have advances := List.length_pos_iff.mpr nonempty
      refine ⟨?_, reads.depth_eq_of_ok⟩
      rw [passes.cursor_eq]
      omega
  | error error =>
      by_cases atEnd : entry.after = []
      · obtain ⟨-, rfl⟩ := reads.eq_of_after_nil atEnd
        exact ⟨[], .refl _, by simp, fun _ _ => rfl⟩
      · have outcome := read_eq_of_form_error atEnd reads
        obtain ⟨consumed, passes, depth_eq⟩ := entry.exists_passes_read
        rw [outcome] at passes depth_eq
        exact ⟨consumed, passes, by simp, fun _ _ => depth_eq⟩

/-- The literal of a declaration is read and nothing else. -/
theorem Declares.reads_iff {entry value : Reader} {layout spacing : List Form}
    {name : String} (declares : entry.Declares layout name spacing value) :
    ∃ literal exit, literal.isLiteral ∧
      ∀ answer last, Scope.form.Reads value answer last ↔
        answer = .ok [literal] ∧ last = exit := by
  obtain ⟨literal, rest, isLiteral, next⟩ := declares.exists_literal
  refine ⟨literal, ⟨literal.unread ++ value.before, rest, value.depth⟩,
    isLiteral, fun answer last => ⟨?_, ?_⟩⟩
  · exact fun reads => reads.eq_of_literal isLiteral next
  · rintro ⟨rfl, rfl⟩
    obtain ⟨answer, last, reads⟩ := Scope.ends_literal isLiteral next
    obtain ⟨rfl, rfl⟩ := reads.eq_of_literal isLiteral next
    exact reads

/-- Readings keep account of where they are and of the calls around them,
however many readings a reader has made and however many of them have failed.
A form that is read takes a token and leaves every call that it has entered; a
form that fails leaves those entered that are open in the tokens it has taken.
A call is therefore left at the depth at which its arguments began, everything
that is read comes to an end, and a declaration whose name has been checked
ends with its literal. -/
theorem readings_keep_account (tokens : List Token) :
    (∀ times, ((ofTokens tokens).afterReads times).KeepsAccount tokens) ∧
      (∀ entry answer exit, Scope.form.Reads entry answer exit →
        ∃ consumed, entry.Passes exit consumed ∧
          (∀ forms, answer = .ok forms →
            entry.cursor < exit.cursor ∧ exit.depth = entry.depth) ∧
          ∀ error, answer = .error error →
            exit.depth = entry.depth + openCalls consumed) ∧
      (∀ callee before rest depth arguments exit,
        (Scope.forms (.arguments callee)).Reads
          ⟨.identifier callee :: .leftParen :: before, rest, depth + 1⟩
          (.ok arguments) exit →
        exit.depth = depth + 1) ∧
      (∀ entry, Scope.form.Ends entry ∧
        ∀ list, (Scope.forms list).Ends entry) ∧
      ∀ entry layout name spacing value,
        Declares entry layout name spacing value →
        ∃ literal exit, literal.isLiteral ∧
          ∀ answer last, Scope.form.Reads value answer last ↔
            answer = .ok [literal] ∧ last = exit := by
  refine ⟨?_, ?_, ?_, ?_, ?_⟩
  · intro times
    exact keepsAccount_of_cutsAt (cutsAt_afterReads tokens times)
  · intro entry answer exit reads
    exact exists_passes_form reads
  · intro callee before rest depth arguments exit reads
    exact reads.depth_eq_of_ok
  · intro entry
    refine ⟨Scope.ends_form ?_, ?_⟩
    · exact fun list later _ => Scope.ends_forms list later
    · exact fun list => Scope.ends_forms list entry
  · intro entry layout name spacing value declares
    exact declares.reads_iff

/-- The first reading fails inside a call, and the second succeeds there. -/
theorem readings_keep_account_inside_open_call :
    ((ofTokens [.leftParen, .identifier "f", .leftParen, .blank,
          .number "1"]).read.1 = .error (.expectedCallee (some .blank)) ∧
        ∃ consumed,
          (ofTokens [.leftParen, .identifier "f", .leftParen, .blank,
            .number "1"]).Passes ⟨[.blank, .leftParen, .identifier "f",
              .leftParen], [.number "1"], 1⟩ consumed ∧
          1 = 0 + openCalls consumed) ∧
      (((ofTokens [.leftParen, .identifier "f", .leftParen, .blank,
          .number "1"]).afterReads 1).read.1 = .ok [.number "1"] ∧
        ((ofTokens [.leftParen, .identifier "f", .leftParen, .blank,
          .number "1"]).afterReads 1).read.2.cursor = 5 ∧
        ((ofTokens [.leftParen, .identifier "f", .leftParen, .blank,
          .number "1"]).afterReads 1).read.2.depth = 1) ∧
      (Scope.form.Reads ⟨[], [.leftParen, .identifier "g", .leftParen], 1⟩
          (.error (.expectedCallee none))
          ⟨[.leftParen, .identifier "g", .leftParen], [], 2⟩ ∧
        ∃ consumed,
          Passes ⟨[], [.leftParen, .identifier "g", .leftParen], 1⟩
            ⟨[.leftParen, .identifier "g", .leftParen], [], 2⟩ consumed ∧
          2 = 1 + openCalls consumed) ∧
      ((Scope.forms (.arguments "g")).Reads
          ⟨[.identifier "g", .leftParen], [.rightParen], 1 + 1⟩ (.ok [])
          ⟨[.identifier "g", .leftParen], [.rightParen], 2⟩ ∧ 2 = 1 + 1) ∧
      Scope.form.Ends ⟨[], [.leftParen], 0⟩ ∧
      Declares ⟨[], [.var, .blank, .identifier "x", .newline, .number "1"], 0⟩
          [.blank] "x" [.newline]
          ⟨[.newline, .identifier "x", .blank, .var], [.number "1"], 0⟩ ∧
        ∃ literal exit, Form.isLiteral literal ∧
          ∀ answer last, Scope.form.Reads
            ⟨[.newline, .identifier "x", .blank, .var], [.number "1"], 0⟩
            answer last ↔ answer = .ok [literal] ∧ last = exit := by
  have declares : Declares
      ⟨[], [.var, .blank, .identifier "x", .newline, .number "1"], 0⟩
      [.blank] "x" [.newline]
      ⟨[.newline, .identifier "x", .blank, .var], [.number "1"], 0⟩ :=
    ⟨rfl, by simp [Form.isTrivia], by simp [Form.isTrivia], rfl, rfl, rfl, rfl,
      by simp [Token.isTrivia]⟩
  obtain ⟨accounts, forms, arguments, ends, literals⟩ := readings_keep_account
    [.leftParen, .identifier "f", .leftParen, .blank, .number "1"]
  refine ⟨⟨rfl, ?_⟩, ⟨rfl, ?_⟩, ?_, ?_, ?_, declares, ?_⟩
  · exact (accounts 0).error _ rfl
  · exact (accounts 1).ok _ rfl
  · have fails : Scope.form.Reads
        ⟨[], [.leftParen, .identifier "g", .leftParen], 1⟩
        (.error (.expectedCallee none))
        ⟨[.leftParen, .identifier "g", .leftParen], [], 2⟩ :=
      .callFails (.firstFails rfl .noCallee)
    obtain ⟨consumed, passes, -, stays⟩ := forms _ _ _ fails
    exact ⟨fails, consumed, passes, stays _ rfl⟩
  · have reads : (Scope.forms (.arguments "g")).Reads
        ⟨[.identifier "g", .leftParen], [.rightParen], 1 + 1⟩ (.ok [])
        ⟨[.identifier "g", .leftParen], [.rightParen], 2⟩ := .stop rfl
    exact ⟨reads, arguments _ _ _ _ _ _ reads⟩
  · exact (ends _).1
  · exact literals _ _ _ _ _ declares

end Reader

end ParenCall
