import ParenCall.Proofs.AcceptedPrograms
import ParenCall.Proofs.GrammaticalTokens

/-!
# Reading concatenated tokens

A reading never looks at the forms it has added.  It can therefore go on after
the forms of an accepted list as if it began anew: with these forms put in
front of its outermost list, every step succeeds or fails as before.  Looking
back does not reach into the earlier tokens either, because no left parenthesis
is the nearest token at the end of an accepted list.
-/

namespace ParenCall

/-- Open calls with forms in front of the outermost list. -/
def OpenCall.precededBy (earlier : List Form) : List OpenCall → List OpenCall
  | [] => []
  | [call] => [{ call with preceding := call.preceding ++ earlier.reverse }]
  | call :: next :: calls => call :: precededBy earlier (next :: calls)

namespace Reading

/-- A reading with forms in front of the outermost list that it fills. -/
def precededBy (earlier : List Form) (reading : Reading) : Reading :=
  match reading.calls with
  | [] => { reading with latest := reading.latest ++ earlier.reverse }
  | call :: calls =>
      { reading with calls := OpenCall.precededBy earlier (call :: calls) }

variable (earlier : List Form)

@[simp] theorem expecting_precededBy (reading : Reading) :
    (reading.precededBy earlier).expecting = reading.expecting := by
  unfold precededBy
  split <;> rfl

@[simp] theorem depth_precededBy (reading : Reading) :
    (reading.precededBy earlier).depth = reading.depth := by
  unfold precededBy
  split <;> rfl

theorem precededBy_expecting (reading : Reading) (expecting : Expectation) :
    precededBy earlier { reading with expecting := expecting } =
      { reading.precededBy earlier with expecting := expecting } := by
  cases callsEq : reading.calls <;> simp [precededBy, callsEq]

theorem precededBy_add (reading : Reading) (forms : List Form) :
    (reading.add forms).precededBy earlier =
      (reading.precededBy earlier).add forms := by
  cases callsEq : reading.calls <;> simp [precededBy, callsEq, add]

theorem precededBy_openCall (reading : Reading) (callee : String) :
    (reading.openCall callee).precededBy earlier =
      (reading.precededBy earlier).openCall callee := by
  cases callsEq : reading.calls <;>
    simp [precededBy, callsEq, openCall, OpenCall.precededBy]

theorem closeCall_precededBy (reading : Reading) :
    (reading.precededBy earlier).closeCall =
      reading.closeCall.map (precededBy earlier) := by
  rcases callsEq : reading.calls with _ | ⟨call, _ | ⟨next, calls⟩⟩ <;>
    simp [precededBy, callsEq, closeCall, OpenCall.precededBy, Except.map, forms]

theorem addTarget_precededBy (reading : Reading) (name : String)
    (rest : List Token) (expecting : Expectation) :
    (reading.precededBy earlier).addTarget name rest expecting =
      (reading.addTarget name rest expecting).map (precededBy earlier) := by
  unfold addTarget
  cases checkTarget name rest with
  | error error => rfl
  | ok =>
      simp only [Except.map]
      rw [← precededBy_add, ← precededBy_expecting]

theorem addLiteral_precededBy (reading : Reading) (literal : Form) :
    (reading.precededBy earlier).addLiteral literal =
      (reading.addLiteral literal).precededBy earlier := by
  unfold addLiteral
  rw [expecting_precededBy]
  split
  · rw [← precededBy_add, ← precededBy_expecting]
  · rw [← precededBy_add]

theorem addVar_precededBy (reading : Reading) :
    (reading.precededBy earlier).addVar =
      reading.addVar.precededBy earlier := by
  unfold addVar
  rw [depth_precededBy]
  split
  · rw [← precededBy_add]
  · rw [← precededBy_add, ← precededBy_expecting]

theorem takeForm_precededBy (reading : Reading) {before base : List Token}
    (sameCallee : nearestSolid (before ++ base) = some .leftParen ↔
      nearestSolid before = some .leftParen) (token : Token)
    (rest : List Token) :
    (reading.precededBy earlier).takeForm (before ++ base) token rest =
      (reading.takeForm before token rest).map (precededBy earlier) := by
  cases token with
  | blank | newline | equal => simp [takeForm, Except.map, precededBy_add]
  | number | string => simp [takeForm, Except.map, addLiteral_precededBy]
  | identifier name =>
      by_cases callee : nearestSolid before = some .leftParen
      · simp [takeForm, sameCallee, callee, Except.map]
      · simp [takeForm, sameCallee, callee, addTarget_precededBy]
  | leftParen => simp [takeForm, Except.map, precededBy_expecting]
  | rightParen => exact closeCall_precededBy earlier reading
  | var => simp [takeForm, Except.map, addVar_precededBy]

theorem take_precededBy (reading : Reading) {before base : List Token}
    (sameCallee : nearestSolid (before ++ base) = some .leftParen ↔
      nearestSolid before = some .leftParen) (token : Token)
    (rest : List Token) :
    (reading.precededBy earlier).take (before ++ base) token rest =
      (reading.take before token rest).map (precededBy earlier) := by
  unfold take
  rw [expecting_precededBy]
  cases reading.expecting with
  | form | value => exact takeForm_precededBy earlier reading sameCallee token rest
  | callee => cases token <;> simp [takeCallee, Except.map, precededBy_openCall]
  | target =>
      cases token <;>
        simp [takeTarget, Except.map, precededBy_add, addTarget_precededBy]

theorem finish_precededBy (reading : Reading) :
    (reading.precededBy earlier).finish =
      reading.finish.map (earlier ++ ·) := by
  rcases callsEq : reading.calls with _ | ⟨call, _ | ⟨next, calls⟩⟩ <;>
    cases expecting : reading.expecting <;>
      simp [finish, precededBy, callsEq, expecting, OpenCall.precededBy,
        Except.map, forms]

end Reading

/-- Reading goes on after earlier forms as it would from the beginning: the
same tokens fail with the same error or add the same forms. -/
theorem Reader.run_precededBy (earlier : List Form) {base : List Token}
    (noCallee : nearestSolid base ≠ some .leftParen) (reading : Reading)
    (before tokens : List Token) :
    (run (reading.precededBy earlier) (before ++ base) tokens).1 =
      (run reading before tokens).1.map (earlier ++ ·) := by
  induction tokens generalizing reading before with
  | nil => exact Reading.finish_precededBy earlier reading
  | cons token rest induction =>
      have sameCallee : nearestSolid (before ++ base) = some .leftParen ↔
          nearestSolid before = some .leftParen := by
        rw [nearestSolid_append]
        cases nearestSolid before with
        | none => simpa using noCallee
        | some solid => simp
      have framed :=
        Reading.take_precededBy earlier reading sameCallee token rest
      cases takes : reading.take before token rest with
      | error error =>
          rw [takes] at framed
          simp [run, takes, framed, Except.map]
      | ok next =>
          rw [takes] at framed
          rw [run_cons_of_take takes, run_cons_of_take framed]
          exact induction next (token :: before)

/-- Tokens after an accepted list are read as they are read alone. -/
theorem readForms_append {first : List Token} {forms : List Form}
    (accepts : readForms first = .ok forms) (second : List Token) :
    readForms (first ++ second) = (readForms second).map (forms ++ ·) := by
  have noCallee := (grammatical_of_readForms accepts).nearestSolid_reverse
  obtain ⟨wellFormed, rfl⟩ := wellFormed_of_readForms accepts
  have begun :
      (Reading.start 0).add forms = (Reading.start 0).precededBy forms := by
    simp [Reading.add, Reading.precededBy, Reading.start]
  rw [readForms_unreadAll_append wellFormed, begun]
  exact Reader.run_precededBy forms noCallee (.start 0) [] second

end ParenCall
