import Mathlib.Data.List.Infix
import ParenCall.Proofs.FreshReadings
import ParenCall.Proofs.ReadingWellFormedForms
import ParenCall.Proofs.SettledReadings

/-!
# Unclosed parentheses

Which left parentheses are closed is a matter of the tokens alone.  One more
token at their end opens a parenthesis, closes the last one that is open, or
does neither.

A reading follows its tokens in the same way.  It comes to a state after each
token that it takes, and in every state that it meets the open calls are those
of the left parentheses that it has taken and that have not been closed yet.
-/

namespace ParenCall

section Balance

/-- Whether tokens after a left parenthesis do not close it: at no place in them
have more parentheses been closed than opened. -/
def KeepsOpen (tokens : List Token) : Prop :=
  ∀ first, first <+: tokens →
    first.count .rightParen ≤ first.count .leftParen

instance (tokens : List Token) : Decidable (KeepsOpen tokens) :=
  decidable_of_iff
    (∀ first ∈ tokens.inits, first.count .rightParen ≤ first.count .leftParen)
    (by simp [KeepsOpen])

/-- What follows each left parenthesis that is never closed, in the order of
these parentheses. -/
def unclosed : List Token → List (List Token)
  | [] => []
  | token :: rest =>
      if token = .leftParen ∧ KeepsOpen rest then rest :: unclosed rest
      else unclosed rest

/-- The number of right parentheses that close nothing. -/
def excess : List Token → Nat
  | [] => 0
  | .leftParen :: rest => excess rest - 1
  | .rightParen :: rest => excess rest + 1
  | _ :: rest => excess rest

theorem excess_le_iff (tokens : List Token) (spare : Nat) :
    excess tokens ≤ spare ↔
      ∀ first, first <+: tokens →
        first.count .rightParen ≤ first.count .leftParen + spare := by
  induction tokens generalizing spare with
  | nil => simp [excess]
  | cons token rest induction =>
      have split :
          (∀ first, first <+: token :: rest →
              first.count .rightParen ≤ first.count .leftParen + spare) ↔
            ∀ first, first <+: rest →
              (token :: first).count .rightParen ≤
                (token :: first).count .leftParen + spare := by
        constructor
        · intro bounded first isFirst
          exact bounded (token :: first)
            (List.cons_prefix_cons.mpr ⟨rfl, isFirst⟩)
        · intro bounded first isFirst
          rcases List.prefix_cons_iff.mp isFirst with
            rfl | ⟨others, rfl, areFirst⟩
          · simp
          · exact bounded others areFirst
      rw [split]
      cases token with
      | leftParen =>
          have weaker : excess (.leftParen :: rest) ≤ spare ↔
              excess rest ≤ 1 + spare := by
            simp only [excess]
            omega
          rw [weaker, induction]
          simp [Nat.add_assoc]
      | rightParen =>
          cases spare with
          | zero =>
              refine iff_of_false (by simp [excess]) ?_
              intro bounded
              simpa using bounded [] List.nil_prefix
          | succ spare =>
              have stronger : excess (.rightParen :: rest) ≤ spare + 1 ↔
                  excess rest ≤ spare := by
                simp only [excess]
                omega
              rw [stronger, induction]
              simp [← Nat.add_assoc]
      | _ => simpa [excess] using induction spare

theorem keepsOpen_iff (tokens : List Token) :
    KeepsOpen tokens ↔ excess tokens = 0 := by
  rw [← Nat.le_zero, excess_le_iff]
  rfl

/-- A left parenthesis without a right one, and a right parenthesis without a
left one, are what the numbers of parentheses differ by. -/
theorem length_unclosed (tokens : List Token) :
    (unclosed tokens).length + tokens.count .rightParen =
      tokens.count .leftParen + excess tokens := by
  induction tokens with
  | nil => rfl
  | cons token rest induction =>
      cases token with
      | leftParen =>
          by_cases opens : KeepsOpen rest
          · have none_left := (keepsOpen_iff rest).mp opens
            simp [unclosed, opens, excess]
            omega
          · have some_left := mt (keepsOpen_iff rest).mpr opens
            simp [unclosed, opens, excess]
            omega
      | rightParen =>
          simp [unclosed, excess]
          omega
      | _ => simpa [unclosed, excess] using induction

theorem keepsOpen_concat (tokens : List Token) (token : Token) :
    KeepsOpen (tokens ++ [token]) ↔
      KeepsOpen tokens ∧
        (token = .rightParen →
          tokens.count .rightParen < tokens.count .leftParen) := by
  simp only [KeepsOpen, List.prefix_concat_iff, forall_eq_or_imp]
  rw [and_comm]
  refine and_congr_right fun opens => ?_
  have whole := opens tokens (List.prefix_refl tokens)
  cases token with
  | rightParen =>
      have closed : (tokens ++ [Token.rightParen]).count .rightParen =
          tokens.count .rightParen + 1 := by
        simp
      have opened : (tokens ++ [Token.rightParen]).count .leftParen =
          tokens.count .leftParen := by
        simp
      rw [closed, opened]
      exact ⟨fun spare _ => spare, fun spare => spare rfl⟩
  | leftParen => simpa using Nat.le_succ_of_le whole
  | _ => simpa using whole

theorem keepsOpen_concat_rightParen {tokens : List Token}
    (opens : KeepsOpen tokens) :
    KeepsOpen (tokens ++ [.rightParen]) ↔ unclosed tokens ≠ [] := by
  have lengths := length_unclosed tokens
  rw [(keepsOpen_iff tokens).mp opens] at lengths
  rw [keepsOpen_concat, ← List.length_pos_iff]
  simp only [opens, true_and, forall_const]
  omega

theorem unclosed_concat_of_ne {token : Token} (notLeft : token ≠ .leftParen)
    (notRight : token ≠ .rightParen) (tokens : List Token) :
    unclosed (tokens ++ [token]) = (unclosed tokens).map (· ++ [token]) := by
  induction tokens with
  | nil => simp [unclosed, notLeft]
  | cons first rest induction =>
      simp only [List.cons_append, unclosed, keepsOpen_concat, notRight,
        false_imp_iff, and_true, induction]
      split <;> simp

theorem unclosed_concat_leftParen (tokens : List Token) :
    unclosed (tokens ++ [.leftParen]) =
      (unclosed tokens).map (· ++ [.leftParen]) ++ [[]] := by
  induction tokens with
  | nil => simp [unclosed, KeepsOpen]
  | cons first rest induction =>
      simp only [List.cons_append, unclosed, keepsOpen_concat, reduceCtorEq,
        false_imp_iff, and_true, induction]
      split <;> simp

/-- A right parenthesis closes the last left parenthesis that is open. -/
theorem unclosed_concat_rightParen (tokens : List Token) :
    unclosed (tokens ++ [.rightParen]) =
      (unclosed tokens).dropLast.map (· ++ [.rightParen]) := by
  induction tokens with
  | nil => simp [unclosed]
  | cons first rest induction =>
      rw [List.cons_append, unclosed, unclosed, induction]
      by_cases opens : first = .leftParen ∧ KeepsOpen rest
      · simp only [opens, keepsOpen_concat_rightParen opens.2, true_and,
          and_self, if_true]
        cases others : unclosed rest with
        | nil => simp
        | cons next others => simp
      · have stays : ¬ (first = .leftParen ∧
            KeepsOpen (rest ++ [.rightParen])) := by
          rw [keepsOpen_concat]
          tauto
        rw [if_neg opens, if_neg stays]

/-- The tokens right after the left parentheses that are never closed. -/
def openings (tokens : List Token) : List (Option Token) :=
  (unclosed tokens).map List.head?

/-- The tokens right after open left parentheses, with one more token taken. -/
def openingsAfter (token : Token) (openings : List (Option Token)) :
    List (Option Token) :=
  match token with
  | .leftParen => openings.map (·.or (some token)) ++ [none]
  | .rightParen => openings.dropLast.map (·.or (some token))
  | _ => openings.map (·.or (some token))

theorem openings_concat (tokens : List Token) (token : Token) :
    openings (tokens ++ [token]) = openingsAfter token (openings tokens) := by
  have firsts (others : List (List Token)) :
      (others.map (· ++ [token])).map List.head? =
        (others.map List.head?).map (·.or (some token)) := by
    simp [List.head?_append]
  cases token with
  | leftParen =>
      rw [openings, unclosed_concat_leftParen, List.map_append, firsts]
      rfl
  | rightParen =>
      rw [openings, unclosed_concat_rightParen, firsts, List.map_dropLast]
      rfl
  | _ =>
      rw [openings, unclosed_concat_of_ne (by simp) (by simp), firsts]
      rfl

end Balance

namespace Reading

/-- The tokens right after the left parentheses of the open calls, outermost
first: their callees, and nothing yet where the callee is expected. -/
def openings (reading : Reading) : List (Option Token) :=
  reading.calls.reverse.map (fun call => some (.identifier call.callee)) ++
    if reading.expecting = .callee then [none] else []

theorem openings_of_not_callee {reading : Reading}
    (notCallee : reading.expecting ≠ .callee) :
    reading.openings =
      reading.calls.reverse.map
        (fun call => some (.identifier call.callee)) := by
  simp [openings, notCallee]

/-- Where no callee is expected, one more token follows no left parenthesis at
once. -/
theorem openings_of_calls_eq {reading next : Reading}
    (notCallee : reading.expecting ≠ .callee)
    (nextNotCallee : next.expecting ≠ .callee)
    (sameCalls : next.calls = reading.calls) (token : Token) :
    next.openings = reading.openings.map (·.or (some token)) := by
  simp [openings_of_not_callee notCallee, openings_of_not_callee nextNotCallee,
    sameCalls]

/-- Taking a token changes the open calls as it changes the left parentheses
that have not been closed. -/
theorem openings_take {reading next : Reading} {before rest : List Token}
    {token : Token} (takes : reading.take before token rest = .ok next) :
    next.openings = openingsAfter token reading.openings := by
  cases step_of_take takes with
  | trivia isTrivia notCallee =>
      cases token with
      | blank | newline => exact openings_of_calls_eq notCallee notCallee rfl _
      | _ => cases isTrivia
  | literal isLiteral admits =>
      have notCallee := Expectation.ne_callee_of_admitsLiteral admits
      cases token with
      | number | string =>
          exact openings_of_calls_eq notCallee (by simp [admits]) (by simp) _
      | _ => cases isLiteral
  | equal admits | target admits =>
      have notCallee := Expectation.ne_callee_of_admitsLiteral admits
      exact openings_of_calls_eq notCallee notCallee rfl _
  | declared expects =>
      have notCallee : reading.expecting ≠ .callee := by simp [expects]
      apply openings_of_calls_eq notCallee _ _ _
      all_goals simp [add]
  | opening admits =>
      have notCallee := Expectation.ne_callee_of_admitsLiteral admits
      simp [openings, openingsAfter, notCallee]
  | callee expects => simp [openings, openingsAfter, openCall, expects]
  | closing admits callsEq =>
      have notCallee := Expectation.ne_callee_of_admitsLiteral admits
      simp [openings, openingsAfter, notCallee, callsEq]
  | var admits =>
      have notCallee := Expectation.ne_callee_of_admitsLiteral admits
      have nextNotCallee : reading.addVar.expecting ≠ .callee := by
        unfold addVar
        split <;> simp [add, notCallee]
      exact openings_of_calls_eq notCallee nextNotCallee (by simp) _

end Reading

namespace Reader

/-- Whether a reading comes to a state, with `before` the tokens taken by then
and `after` the tokens to come. -/
inductive Meets (reader : Reader) :
    Reading → List Token → List Token → Prop
  | start : reader.Meets (.start reader.depth) reader.before reader.after
  | take {reading next : Reading} {before rest : List Token} {token : Token}
      (met : reader.Meets reading before (token :: rest))
      (takes : reading.take before token rest = .ok next) :
      reader.Meets next (token :: before) rest

/-- A reader of a whole list has taken the tokens before it. -/
theorem Passes.reverse_before_eq {tokens taken : List Token} {exit : Reader}
    (passes : (ofTokens tokens).Passes exit taken) :
    exit.before.reverse = taken := by
  simp [passes.before_eq, ofTokens]

namespace Meets

variable {reader : Reader} {reading : Reading} {before after : List Token}

/-- The open calls are those of the left parentheses taken and not closed. -/
theorem exists_taken (met : reader.Meets reading before after) :
    ∃ taken, reader.Passes ⟨before, after, reading.depth⟩ taken ∧
      reading.openings = openings taken := by
  induction met with
  | start => exact ⟨[], ⟨rfl, rfl⟩, rfl⟩
  | @take _ _ _ _ token _ takes induction =>
      obtain ⟨taken, passes, same⟩ := induction
      refine ⟨taken ++ [token], passes.trans ⟨rfl, rfl⟩, ?_⟩
      rw [Reading.openings_take takes, same, openings_concat]

theorem read_eq (met : reader.Meets reading before after) :
    reader.read = run reading before after := by
  induction met with
  | start => rfl
  | take _ takes same => rw [same, run_cons_of_take takes]

/-- A reading goes on to the end of the tokens or to a token that it refuses. -/
theorem exists_last (met : reader.Meets reading before after) :
    ∃ last lastBefore lastAfter, reader.Meets last lastBefore lastAfter ∧
      ∀ token rest, lastAfter = token :: rest →
        ∃ error, last.take lastBefore token rest = .error error := by
  induction after generalizing reading before with
  | nil => exact ⟨reading, before, [], met, by simp⟩
  | cons token rest induction =>
      cases takes : reading.take before token rest with
      | ok next => exact induction (met.take takes)
      | error error =>
          refine ⟨reading, before, token :: rest, met, ?_⟩
          rintro _ _ ⟨⟩
          exact ⟨error, takes⟩

variable {tokens : List Token}

theorem fresh (met : (ofTokens tokens).Meets reading before after) :
    reading.Fresh before after := by
  induction met with
  | start => exact Reading.fresh_start tokens
  | take _ takes fresh => exact fresh.take takes

theorem tokens_eq (met : (ofTokens tokens).Meets reading before after) :
    tokens = before.reverse ++ after := by
  obtain ⟨taken, passes, -⟩ := met.exists_taken
  have takenEq : before.reverse = taken := passes.reverse_before_eq
  rw [takenEq]
  exact passes.after_eq

theorem openings_eq (met : (ofTokens tokens).Meets reading before after) :
    reading.openings = openings before.reverse := by
  obtain ⟨taken, passes, same⟩ := met.exists_taken
  have takenEq : before.reverse = taken := passes.reverse_before_eq
  rw [takenEq, same]

end Meets

end Reader

end ParenCall
