import ParenCall.Proofs.ReadingWellFormedForms
import ParenCall.Proofs.SettledReadings

/-!
# Reading form by form

A reading takes one token at a time and keeps the open calls in its state.  The
same reading can be told form by form: a form is read from where it begins to
where it ends, the arguments of a call are read one form after another up to
its right parenthesis, and a program up to the end of the tokens.  Every
failure inside a form is a failure of the form, and the reader stays where the
failure left it.

The rules of this file tell a reading in that way.  They have an outcome at
every place, because a form that is read takes at least one token.  Whatever
they say of a program is what the reading does, so the reading does nothing
else.
-/

namespace ParenCall

open Form

/-- Layout is passed over when looking for a literal. -/
theorem literalFollows_layout_append {layout : List Form}
    (layoutTrivia : ∀ form ∈ layout, form.isTrivia) (rest : List Token) :
    literalFollows (unreadAll layout ++ rest) = literalFollows rest := by
  induction layout with
  | nil => rfl
  | cons form layout induction =>
      have isTrivia : form.isTrivia := layoutTrivia form (by simp)
      obtain ⟨token, tokens, tokenTrivia⟩ := exists_unread_of_isTrivia isTrivia
      rw [unreadAll_trivia isTrivia, tokens]
      simpa [tokenTrivia] using
        induction fun other member => layoutTrivia other (by simp [member])

/-- The form of a token that is a form by itself. -/
def Token.leaf? : Token → Option Form
  | .blank => some .blank
  | .newline => some .newline
  | .number digits => some (.number digits)
  | .string content => some (.string content)
  | .equal => some .equals
  | _ => none

/-- The lists whose forms are read one after another. -/
inductive FormList
  | arguments (callee : String)
  | program

/-- The answer at the end of a list of forms, if the tokens to come end it.  Only
a right parenthesis ends arguments, and only the end of the tokens ends a
program. -/
def FormList.stop? :
    FormList → List Token → Option (Except ReadError (List Form))
  | .arguments _, .rightParen :: _ => some (.ok [])
  | .arguments callee, [] => some (.error (.unterminatedCall callee))
  | .program, [] => some (.ok [])
  | _, _ => none

namespace FormList

theorem eq_nil_of_stop? {list : FormList} {tokens : List Token}
    {forms : List Form} (stops : list.stop? tokens = some (.ok forms)) :
    forms = [] := by
  unfold stop? at stops
  split at stops <;> cases stops <;> rfl

theorem ne_nil_of_stop? {list : FormList} {tokens : List Token}
    (goesOn : list.stop? tokens = none) : tokens ≠ [] := by
  rintro rfl
  cases list <;> cases goesOn

theorem exists_rightParen_of_stop? {callee : String} {tokens : List Token}
    {forms : List Form}
    (stops : (arguments callee).stop? tokens = some (.ok forms)) :
    ∃ following, tokens = .rightParen :: following := by
  cases tokens with
  | nil => cases stops
  | cons token following =>
      cases token with
      | rightParen => exact ⟨following, rfl⟩
      | _ => cases stops

theorem eq_nil_of_stop?_program {tokens : List Token}
    {answer : Except ReadError (List Form)}
    (stops : program.stop? tokens = some answer) : tokens = [] := by
  cases tokens with
  | nil => rfl
  | cons => cases stops

end FormList

/-- What is read: one form, or the rest of a list of forms. -/
inductive Scope
  | form
  | forms (list : FormList)

namespace Reader

/-- Whether a reader at the keyword, outside all calls, gets to `value` past the
declared name and the layout around it. -/
structure Declares (entry : Reader) (layout : List Form) (name : String)
    (spacing : List Form) (value : Reader) : Prop where
  outside : entry.depth = 0
  layoutTrivia : ∀ form ∈ layout, form.isTrivia
  spacingTrivia : ∀ form ∈ spacing, form.isTrivia
  after_eq : entry.after = .var :: (unreadAll layout ++ .identifier name ::
    (unreadAll spacing ++ value.after))
  before_eq : value.before = (unreadAll spacing).reverse ++ .identifier name ::
    ((unreadAll layout).reverse ++ .var :: entry.before)
  depth_eq : value.depth = 0
  checks : checkTarget name (unreadAll spacing ++ value.after) = .ok ()
  /-- All of the layout has been taken. -/
  solid : ∀ token ∈ value.after.head?, token.isTrivia = false

end Reader

/-- Reading from one place to another, with the answer.  A failure is passed on
by everything that is being read, and only a call that is left takes its depth
away again. -/
inductive Scope.Reads :
    Scope → Reader → Except ReadError (List Form) → Reader → Prop
  | noForm {before : List Token} {depth : Nat} :
      Reads .form ⟨before, [], depth⟩ (.error (.unexpectedToken none))
        ⟨before, [], depth⟩
  | leaf {token : Token} {form : Form} {before rest : List Token} {depth : Nat}
      (isLeaf : token.leaf? = some form) :
      Reads .form ⟨before, token :: rest, depth⟩ (.ok [form])
        ⟨token :: before, rest, depth⟩
  | nameAfterParen {name : String} {before rest : List Token} {depth : Nat}
      (afterParen : nearestSolid before = some .leftParen) :
      Reads .form ⟨before, .identifier name :: rest, depth⟩
        (.error (.unexpectedToken (some .identifier)))
        ⟨before, .identifier name :: rest, depth⟩
  | strayParen {before rest : List Token} {depth : Nat} :
      Reads .form ⟨before, .rightParen :: rest, depth⟩
        (.error (.unexpectedToken (some .rightParen)))
        ⟨before, .rightParen :: rest, depth⟩
  | target {name : String} {before rest : List Token} {depth : Nat}
      (apart : nearestSolid before ≠ some .leftParen)
      (checks : checkTarget name rest = .ok ()) :
      Reads .form ⟨before, .identifier name :: rest, depth⟩
        (.ok [.name name, .blank, .equals])
        ⟨.identifier name :: before, rest, depth⟩
  | targetFails {name : String} {before rest : List Token} {depth : Nat}
      {error : ReadError} (apart : nearestSolid before ≠ some .leftParen)
      (fails : checkTarget name rest = .error error) :
      Reads .form ⟨before, .identifier name :: rest, depth⟩ (.error error)
        ⟨before, .identifier name :: rest, depth⟩
  | noCallee {before : List Token} {depth : Nat} :
      Reads .form ⟨before, [.leftParen], depth⟩ (.error (.expectedCallee none))
        ⟨.leftParen :: before, [], depth⟩
  | calleeFails {token : Token} {before rest : List Token} {depth : Nat}
      (noName : ∀ name, token ≠ .identifier name) :
      Reads .form ⟨before, .leftParen :: token :: rest, depth⟩
        (.error (.expectedCallee (some token.kind)))
        ⟨token :: .leftParen :: before, rest, depth⟩
  | call {callee : String} {arguments : List Form}
      {before rest last following : List Token} {depth innerDepth : Nat}
      (inner : Reads (.forms (.arguments callee))
        ⟨.identifier callee :: .leftParen :: before, rest, depth + 1⟩
        (.ok arguments) ⟨last, .rightParen :: following, innerDepth⟩) :
      Reads .form ⟨before, .leftParen :: .identifier callee :: rest, depth⟩
        (.ok [.call callee arguments])
        ⟨.rightParen :: last, following, innerDepth - 1⟩
  | callFails {callee : String} {before rest : List Token} {depth : Nat}
      {error : ReadError} {exit : Reader}
      (inner : Reads (.forms (.arguments callee))
        ⟨.identifier callee :: .leftParen :: before, rest, depth + 1⟩
        (.error error) exit) :
      Reads .form ⟨before, .leftParen :: .identifier callee :: rest, depth⟩
        (.error error) exit
  | argumentVar {before rest : List Token} {depth : Nat}
      (enclosed : 0 < depth) :
      Reads .form ⟨before, .var :: rest, depth⟩ (.ok [.var])
        ⟨.var :: before, rest, depth⟩
  | noDeclared {layout : List Form} {before rest : List Token}
      (layoutTrivia : ∀ form ∈ layout, form.isTrivia)
      (noName : ∀ token ∈ rest.head?,
        token.isTrivia = false ∧ ∀ name, token ≠ .identifier name) :
      Reads .form ⟨before, .var :: (unreadAll layout ++ rest), 0⟩
        (.error (.expectedTarget (rest.head?.map Token.kind)))
        ⟨(unreadAll layout).reverse ++ .var :: before, rest, 0⟩
  | declaredFails {layout : List Form} {name : String}
      {before rest : List Token} {error : ReadError}
      (layoutTrivia : ∀ form ∈ layout, form.isTrivia)
      (fails : checkTarget name rest = .error error) :
      Reads .form
        ⟨before, .var :: (unreadAll layout ++ .identifier name :: rest), 0⟩
        (.error error)
        ⟨(unreadAll layout).reverse ++ .var :: before,
          .identifier name :: rest, 0⟩
  | declaration {layout spacing literal : List Form} {name : String}
      {entry value exit : Reader}
      (declares : entry.Declares layout name spacing value)
      (final : Reads .form value (.ok literal) exit) :
      Reads .form entry
        (.ok (.var :: (layout ++ .name name :: .blank :: .equals ::
          (spacing ++ (literal ++ [.semicolon]))))) exit
  | valueFails {layout spacing : List Form} {name : String}
      {entry value exit : Reader} {error : ReadError}
      (declares : entry.Declares layout name spacing value)
      (final : Reads .form value (.error error) exit) :
      Reads .form entry (.error error) exit
  | stop {list : FormList} {entry : Reader}
      {answer : Except ReadError (List Form)}
      (stops : list.stop? entry.after = some answer) :
      Reads (.forms list) entry answer entry
  | more {list : FormList} {forms others : List Form}
      {entry next exit : Reader} (goesOn : list.stop? entry.after = none)
      (first : Reads .form entry (.ok forms) next)
      (tail : Reads (.forms list) next (.ok others) exit) :
      Reads (.forms list) entry (.ok (forms ++ others)) exit
  | firstFails {list : FormList} {entry exit : Reader} {error : ReadError}
      (goesOn : list.stop? entry.after = none)
      (first : Reads .form entry (.error error) exit) :
      Reads (.forms list) entry (.error error) exit
  | othersFail {list : FormList} {forms : List Form}
      {entry next exit : Reader} {error : ReadError}
      (goesOn : list.stop? entry.after = none)
      (first : Reads .form entry (.ok forms) next)
      (tail : Reads (.forms list) next (.error error) exit) :
      Reads (.forms list) entry (.error error) exit

namespace Reader

/-- A call is entered past its left parenthesis and its callee. -/
theorem passes_callee {callee : String} {before rest : List Token}
    {depth innerDepth : Nat} :
    (⟨before, .leftParen :: .identifier callee :: rest, depth⟩ : Reader).Passes
      ⟨.identifier callee :: .leftParen :: before, rest, innerDepth⟩
      [.leftParen, .identifier callee] :=
  ⟨rfl, rfl⟩

theorem passes_closing {before rest : List Token} {depth innerDepth : Nat} :
    (⟨before, .rightParen :: rest, innerDepth⟩ : Reader).Passes
      ⟨.rightParen :: before, rest, depth⟩ [.rightParen] :=
  ⟨rfl, rfl⟩

theorem Declares.passes {entry value : Reader} {layout spacing : List Form}
    {name : String} (declares : entry.Declares layout name spacing value) :
    entry.Passes value (.var :: (unreadAll layout ++ .identifier name ::
      unreadAll spacing)) where
  after_eq := by simp [declares.after_eq]
  before_eq := by simp [declares.before_eq]

/-- A declaration whose name is checked has its literal next. -/
theorem Declares.exists_literal {entry value : Reader}
    {layout spacing : List Form} {name : String}
    (declares : entry.Declares layout name spacing value) :
    ∃ (literal : Form) (rest : List Token),
      literal.isLiteral ∧ value.after = literal.unread ++ rest := by
  have follows := (checkTarget_eq_ok_iff _ _).mp declares.checks
  rw [literalFollows_layout_append declares.spacingTrivia] at follows
  cases after : value.after with
  | nil => simp [after] at follows
  | cons token rest =>
      have solid : token.isTrivia = false :=
        declares.solid token (by simp [after])
      have isLiteral : token.isLiteral := by simpa [after, solid] using follows
      obtain ⟨literal, formLiteral, unreads⟩ := exists_literal_unread isLiteral
      exact ⟨literal, rest, formLiteral, by simp [unreads]⟩

end Reader

namespace Scope.Reads

/-- Reading moves forward only. -/
theorem exists_passes {scope : Scope} {entry exit : Reader}
    {answer : Except ReadError (List Form)}
    (reads : scope.Reads entry answer exit) :
    ∃ consumed, entry.Passes exit consumed := by
  induction reads with
  | leaf | target | argumentVar => exact ⟨[_], rfl, rfl⟩
  | noForm | nameAfterParen | strayParen | targetFails | stop =>
      exact ⟨[], Reader.Passes.refl _⟩
  | noCallee => exact ⟨[.leftParen], rfl, rfl⟩
  | @calleeFails token => exact ⟨[.leftParen, token], rfl, rfl⟩
  | call _ induction =>
      obtain ⟨consumed, passes⟩ := induction
      exact ⟨_, (Reader.passes_callee.trans passes).trans Reader.passes_closing⟩
  | callFails _ induction =>
      obtain ⟨consumed, passes⟩ := induction
      exact ⟨_, Reader.passes_callee.trans passes⟩
  | @noDeclared layout | @declaredFails layout =>
      exact ⟨.var :: unreadAll layout, by simp, by simp⟩
  | declaration declares _ induction | valueFails declares _ induction =>
      obtain ⟨consumed, passes⟩ := induction
      exact ⟨_, declares.passes.trans passes⟩
  | more _ _ _ firstInduction tailInduction
  | othersFail _ _ _ firstInduction tailInduction =>
      obtain ⟨first, passesFirst⟩ := firstInduction
      obtain ⟨second, passesSecond⟩ := tailInduction
      exact ⟨_, passesFirst.trans passesSecond⟩
  | firstFails _ _ induction => exact induction

/-- A form that is read has taken a token. -/
theorem exists_passes_of_ok {entry exit : Reader} {forms : List Form}
    (reads : Scope.form.Reads entry (.ok forms) exit) :
    ∃ consumed, consumed ≠ [] ∧ entry.Passes exit consumed := by
  cases reads with
  | leaf | target | argumentVar => exact ⟨[_], by simp, rfl, rfl⟩
  | call inner =>
      obtain ⟨consumed, passes⟩ := inner.exists_passes
      exact ⟨_, by simp,
        (Reader.passes_callee.trans passes).trans Reader.passes_closing⟩
  | declaration declares final =>
      obtain ⟨consumed, passes⟩ := final.exists_passes
      exact ⟨_, by simp, declares.passes.trans passes⟩

/-- Reading without a failure leaves as many calls as it enters. -/
theorem depth_eq_of_ok {scope : Scope} {entry exit : Reader}
    {forms : List Form} (reads : scope.Reads entry (.ok forms) exit) :
    exit.depth = entry.depth := by
  generalize answered : Except.ok forms = answer at reads
  induction reads generalizing forms with
  | call _ induction =>
      have inner := induction rfl
      simp only at inner ⊢
      omega
  | declaration declares _ induction =>
      rw [induction rfl, declares.depth_eq, declares.outside]
  | more _ _ _ firstInduction tailInduction =>
      rw [tailInduction rfl, firstInduction rfl]
  | leaf | target | argumentVar | stop => rfl
  | _ => cases answered

/-- A list of forms is read up to what ends it. -/
theorem stop?_of_ok {list : FormList} {entry exit : Reader}
    {forms : List Form}
    (reads : (Scope.forms list).Reads entry (.ok forms) exit) :
    list.stop? exit.after = some (.ok []) := by
  generalize answered : Except.ok forms = answer at reads
  generalize isList : Scope.forms list = scope at reads
  induction reads generalizing forms with
  | stop stops =>
      cases isList
      subst answered
      rw [stops, FormList.eq_nil_of_stop? stops]
  | more _ _ _ _ tailInduction =>
      cases isList
      exact tailInduction rfl rfl
  | firstFails | othersFail => cases answered
  | _ => cases isList

/-- At the end of the tokens there is no form. -/
theorem eq_of_after_nil {entry exit : Reader} (atEnd : entry.after = [])
    {answer : Except ReadError (List Form)}
    (reads : Scope.form.Reads entry answer exit) :
    answer = .error (.unexpectedToken none) ∧ exit = entry := by
  cases reads with
  | noForm => exact ⟨rfl, rfl⟩
  | declaration declares | valueFails declares =>
      cases declares.after_eq.symm.trans atEnd
  | _ => cases atEnd

/-- A literal is read by itself. -/
theorem eq_of_literal {literal : Form} (isLiteral : literal.isLiteral)
    {entry exit : Reader} {rest : List Token}
    (next : entry.after = literal.unread ++ rest)
    {answer : Except ReadError (List Form)}
    (reads : Scope.form.Reads entry answer exit) :
    answer = .ok [literal] ∧
      exit = ⟨literal.unread ++ entry.before, rest, entry.depth⟩ := by
  cases literal with
  | number | string =>
      cases reads with
      | leaf isLeaf =>
          cases next
          cases isLeaf
          exact ⟨rfl, rfl⟩
      | declaration declares | valueFails declares =>
          cases declares.after_eq.symm.trans next
      | _ => cases next
  | _ => cases isLiteral

end Scope.Reads

section Outcomes

/-- Tokens begin with layout, up to one that is none. -/
theorem exists_layout (tokens : List Token) :
    ∃ (layout : List Form) (rest : List Token),
      (∀ form ∈ layout, form.isTrivia) ∧ tokens = unreadAll layout ++ rest ∧
        ∀ token ∈ rest.head?, token.isTrivia = false := by
  induction tokens with
  | nil => exact ⟨[], [], by simp, rfl, by simp⟩
  | cons token tokens induction =>
      by_cases tokenTrivia : token.isTrivia
      · obtain ⟨form, isTrivia, unreads⟩ := exists_trivia_unread tokenTrivia
        obtain ⟨layout, rest, layoutTrivia, rfl, solid⟩ := induction
        refine ⟨form :: layout, rest, ?_, ?_, solid⟩
        · simpa [isTrivia] using layoutTrivia
        · rw [unreadAll_trivia isTrivia, unreads]
          rfl
      · exact ⟨[], token :: tokens, by simp, rfl, by simpa using tokenTrivia⟩

/-- Whether reading comes to an end, with an answer. -/
def Scope.Ends (scope : Scope) (entry : Reader) : Prop :=
  ∃ answer exit, scope.Reads entry answer exit

theorem Scope.ends_target (name : String) (before rest : List Token)
    (depth : Nat) :
    Scope.form.Ends ⟨before, .identifier name :: rest, depth⟩ := by
  by_cases afterParen : nearestSolid before = some .leftParen
  · exact ⟨_, _, .nameAfterParen afterParen⟩
  · cases checked : checkTarget name rest with
    | ok => exact ⟨_, _, .target afterParen checked⟩
    | error error => exact ⟨_, _, .targetFails afterParen checked⟩

/-- A call ends where its arguments do. -/
theorem Scope.ends_call {callee : String} {before rest : List Token}
    {depth : Nat}
    (inner : (Scope.forms (.arguments callee)).Ends
      ⟨.identifier callee :: .leftParen :: before, rest, depth + 1⟩) :
    Scope.form.Ends
      ⟨before, .leftParen :: .identifier callee :: rest, depth⟩ := by
  obtain ⟨answer, ⟨last, after, innerDepth⟩, reads⟩ := inner
  cases answer with
  | ok arguments =>
      obtain ⟨following, closes⟩ :=
        FormList.exists_rightParen_of_stop? reads.stop?_of_ok
      simp only at closes
      subst closes
      exact ⟨_, _, .call reads⟩
  | error error => exact ⟨_, _, .callFails reads⟩

theorem Scope.ends_literal {literal : Form} (isLiteral : literal.isLiteral)
    {entry : Reader} {rest : List Token}
    (next : entry.after = literal.unread ++ rest) : Scope.form.Ends entry := by
  obtain ⟨before, after, depth⟩ := entry
  cases next
  cases literal with
  | number | string => exact ⟨_, _, .leaf rfl⟩
  | _ => cases isLiteral

theorem Scope.ends_declaration (before rest : List Token) :
    Scope.form.Ends ⟨before, .var :: rest, 0⟩ := by
  obtain ⟨layout, following, layoutTrivia, rfl, solid⟩ := exists_layout rest
  by_cases named : ∃ name others, following = .identifier name :: others
  · obtain ⟨name, others, rfl⟩ := named
    cases checked : checkTarget name others with
    | error error => exact ⟨_, _, .declaredFails layoutTrivia checked⟩
    | ok =>
        obtain ⟨spacing, valueTokens, spacingTrivia, rfl, valueSolid⟩ :=
          exists_layout others
        have declares : Reader.Declares
            ⟨before, .var :: (unreadAll layout ++ .identifier name ::
              (unreadAll spacing ++ valueTokens)), 0⟩ layout name spacing
            ⟨(unreadAll spacing).reverse ++ .identifier name ::
              ((unreadAll layout).reverse ++ .var :: before), valueTokens, 0⟩ :=
          ⟨rfl, layoutTrivia, spacingTrivia, rfl, rfl, rfl, checked, valueSolid⟩
        obtain ⟨literal, last, isLiteral, next⟩ := declares.exists_literal
        obtain ⟨answer, exit, reads⟩ := Scope.ends_literal isLiteral next
        cases answer with
        | ok => exact ⟨_, _, .declaration declares reads⟩
        | error => exact ⟨_, _, .valueFails declares reads⟩
  · refine ⟨_, _, .noDeclared layoutTrivia ?_⟩
    intro token isNext
    refine ⟨solid token isNext, ?_⟩
    rintro name rfl
    obtain ⟨others, rfl⟩ := List.head?_eq_some_iff.mp isNext
    exact named ⟨name, others, rfl⟩

/-- A form ends if the arguments of a call do that begin later. -/
theorem Scope.ends_form {entry : Reader}
    (inner : ∀ (list : FormList) (later : Reader),
      later.after.length < entry.after.length →
        (Scope.forms list).Ends later) :
    Scope.form.Ends entry := by
  obtain ⟨before, after, depth⟩ := entry
  match after with
  | [] => exact ⟨_, _, .noForm⟩
  | .blank :: _ | .newline :: _ | .number _ :: _ | .string _ :: _
  | .equal :: _ => exact ⟨_, _, .leaf rfl⟩
  | .identifier word :: rest => exact ends_target word before rest depth
  | .rightParen :: rest => exact ⟨_, _, .strayParen⟩
  | .var :: rest =>
      by_cases enclosed : 0 < depth
      · exact ⟨_, _, .argumentVar enclosed⟩
      · obtain rfl : depth = 0 := by omega
        exact ends_declaration before rest
  | [.leftParen] => exact ⟨_, _, .noCallee⟩
  | .leftParen :: token :: rest =>
      by_cases named : ∃ callee, token = .identifier callee
      · obtain ⟨callee, rfl⟩ := named
        apply ends_call
        apply inner
        simp only [List.length_cons]
        omega
      · exact ⟨_, _, .calleeFails fun name same => named ⟨name, same⟩⟩

/-- Every list of forms comes to an end, because each of its forms takes a
token. -/
theorem Scope.ends_forms (list : FormList) (entry : Reader) :
    (Scope.forms list).Ends entry := by
  -- The arguments of a call and the forms after a form are both later lists.
  induction length : entry.after.length using Nat.strongRecOn
    generalizing list entry with
  | ind remaining induction =>
      subst length
      cases stops : list.stop? entry.after with
      | some answer => exact ⟨_, _, .stop stops⟩
      | none =>
          obtain ⟨answer, next, first⟩ :=
            @ends_form entry
              fun list later shorter => induction _ shorter list later rfl
          cases answer with
          | error error => exact ⟨_, _, .firstFails stops first⟩
          | ok forms =>
              obtain ⟨consumed, nonempty, passes⟩ := first.exists_passes_of_ok
              have shorter : next.after.length < entry.after.length := by
                have taken := List.length_pos_iff.mpr nonempty
                rw [passes.after_eq, List.length_append]
                omega
              obtain ⟨rest, exit, tail⟩ := induction _ shorter list next rfl
              cases rest with
              | ok others => exact ⟨_, _, .more stops first tail⟩
              | error error => exact ⟨_, _, .othersFail stops first tail⟩

end Outcomes

namespace Reader

/-- What a reading does that has come to `exit` with an answer for some of its
forms: it goes on with these forms added, or fails. -/
def goOn (reading : Reading) (exit : Reader) :
    Except ReadError (List Form) → Except ReadError (List Form) × Reader
  | .ok forms => run (reading.add forms) exit.before exit.after
  | .error error => (.error error, exit)

end Reader

/-- Whether open calls are those that a scope stands in: arguments are those of
the innermost call, a program has no call around it, and a form may be read
anywhere but at the end and at a parenthesis that closes a call. -/
def Scope.Fits (tokens : List Token) (calls : List OpenCall) : Scope → Prop
  | .form => tokens ≠ [] ∧ (tokens.head? = some .rightParen → calls = [])
  | .forms (.arguments callee) => calls.head?.map OpenCall.callee = some callee
  | .forms .program => calls = []

theorem Scope.Fits.form_of_forms {list : FormList} {tokens : List Token}
    {calls : List OpenCall} (fits : (Scope.forms list).Fits tokens calls)
    (goesOn : list.stop? tokens = none) : Scope.form.Fits tokens calls := by
  refine ⟨FormList.ne_nil_of_stop? goesOn, ?_⟩
  intro closes
  cases list with
  | program => exact fits
  | arguments callee =>
      obtain ⟨rest, rfl⟩ := List.head?_eq_some_iff.mp closes
      cases goesOn

theorem Scope.Fits.forms_of_forms {list : FormList} {tokens : List Token}
    {calls : List OpenCall} (fits : (Scope.forms list).Fits tokens calls)
    (others : List Token) : (Scope.forms list).Fits others calls := by
  cases list with
  | program | arguments => exact fits

namespace Reader

theorem run_eq_error {reading : Reading} {before rest : List Token}
    {token : Token} {error : ReadError}
    (expects : reading.expecting ≠ .callee)
    (fails : reading.take before token rest = .error error) :
    run reading before (token :: rest) =
      (.error error, ⟨before, token :: rest, reading.depth⟩) := by
  simp [run, fails, expects]

theorem run_leaf {reading : Reading} (expects : reading.expecting = .form)
    {token : Token} {form : Form} (isLeaf : token.leaf? = some form)
    (before rest : List Token) :
    run reading before (token :: rest) =
      run (reading.add [form]) (token :: before) rest := by
  apply run_cons_of_take
  cases token with
  | blank | newline | number | string | equal =>
      cases isLeaf
      simp [Reading.take, Reading.takeForm, Reading.addLiteral, expects]
  | _ => cases isLeaf

/-- The token in the place of a callee has been taken when it is refused. -/
theorem run_refused_callee {reading : Reading}
    (expects : reading.expecting = .form) {token : Token}
    (noName : ∀ name, token ≠ .identifier name) (before rest : List Token) :
    run reading before (.leftParen :: token :: rest) =
      (.error (.expectedCallee (some token.kind)),
        ⟨token :: .leftParen :: before, rest, reading.depth⟩) := by
  have opens : reading.take before .leftParen (token :: rest) =
      .ok { reading with expecting := .callee } := by
    simp [Reading.take, Reading.takeForm, expects]
  rw [run_cons_of_take opens]
  cases token with
  | identifier name => exact absurd rfl (noName name)
  | _ => rfl

/-- A declaration up to its name, or to what stands in its place. -/
theorem run_var_layout {reading : Reading} (expects : reading.expecting = .form)
    (outside : reading.depth = 0) {layout : List Form}
    (layoutTrivia : ∀ form ∈ layout, form.isTrivia)
    (before rest : List Token) :
    run reading before (.var :: (unreadAll layout ++ rest)) =
      run { reading.add (.var :: layout) with expecting := .target }
        ((unreadAll layout).reverse ++ .var :: before) rest := by
  have unenclosed : reading.place = .topLevel := by
    simp [Reading.place, outside]
  rw [run_cons_of_take (take_var_of_topLevel expects unenclosed before _),
    run_layout layoutTrivia (by simp)]
  simp [Reading.add]

/-- No declaration goes on where its name should be and is not. -/
theorem run_refused_target {reading : Reading}
    (expects : reading.expecting = .target) {rest : List Token}
    (noName : ∀ token ∈ rest.head?,
      token.isTrivia = false ∧ ∀ name, token ≠ .identifier name)
    (before : List Token) :
    run reading before rest =
      (.error (.expectedTarget (rest.head?.map Token.kind)),
        ⟨before, rest, reading.depth⟩) := by
  cases rest with
  | nil => simp [run, Reading.finish, expects]
  | cons token rest =>
      obtain ⟨solid, noName⟩ := noName token rfl
      apply run_eq_error (by simp [expects])
      simp only [Reading.take, expects]
      cases token with
      | blank | newline => cases solid
      | identifier name => exact absurd rfl (noName name)
      | _ => rfl

theorem run_refused_declared {reading : Reading}
    (expects : reading.expecting = .target) {name : String}
    {rest : List Token} {error : ReadError}
    (fails : checkTarget name rest = .error error) (before : List Token) :
    run reading before (.identifier name :: rest) =
      (.error error, ⟨before, .identifier name :: rest, reading.depth⟩) := by
  apply run_eq_error (by simp [expects])
  simp [Reading.take, Reading.takeTarget, Reading.addTarget, expects, fails]

/-- A call whose arguments the end of the tokens cuts off is unterminated. -/
theorem run_unterminated {reading : Reading} (expects : reading.expecting = .form)
    {callee : String}
    (innermost : reading.calls.head?.map OpenCall.callee = some callee)
    (before : List Token) :
    run reading before [] =
      (.error (.unterminatedCall callee), ⟨before, [], reading.depth⟩) := by
  cases calls : reading.calls with
  | nil => simp [calls] at innermost
  | cons call outer =>
      obtain rfl : call.callee = callee := by simpa [calls] using innermost
      simp [run, Reading.finish, expects, calls]

/-- The end of a list of forms adds nothing to it. -/
theorem run_stop {list : FormList} {reading : Reading}
    (expects : reading.expecting = .form) {before after : List Token}
    (fits : (Scope.forms list).Fits after reading.calls)
    {answer : Except ReadError (List Form)}
    (stops : list.stop? after = some answer) :
    run reading before after =
      goOn reading ⟨before, after, reading.depth⟩ answer := by
  cases list with
  | program =>
      obtain rfl := FormList.eq_nil_of_stop?_program stops
      cases stops
      rfl
  | arguments callee =>
      cases after with
      | nil =>
          cases stops
          exact run_unterminated expects fits before
      | cons token rest =>
          cases token with
          | rightParen =>
              cases stops
              rfl
          | _ => cases stops

end Reader

open Reader in
/-- A reading that is told form by form goes on from where the telling ends. -/
theorem Scope.Reads.run_eq {scope : Scope} {entry exit : Reader}
    {answer : Except ReadError (List Form)}
    (reads : scope.Reads entry answer exit) {reading : Reading}
    (expects : reading.expecting = .form)
    (depth_eq : reading.depth = entry.depth)
    (fits : scope.Fits entry.after reading.calls) :
    run reading entry.before entry.after = goOn reading exit answer := by
  induction reads generalizing reading with
  | noForm => exact absurd rfl fits.1
  | leaf isLeaf => exact run_leaf expects isLeaf _ _
  | nameAfterParen afterParen =>
      cases depth_eq
      apply run_eq_error (by simp [expects])
      simp [Reading.take, Reading.takeForm, expects, afterParen]
  | strayParen =>
      have closed : reading.calls = [] := fits.2 rfl
      cases depth_eq
      apply run_eq_error (by simp [expects])
      simp [Reading.take, Reading.takeForm, Reading.closeCall, expects, closed]
  | target apart checks =>
      exact run_target expects apart _ ((checkTarget_eq_ok_iff _ _).mp checks)
  | targetFails apart fails =>
      cases depth_eq
      apply run_eq_error (by simp [expects])
      simp [Reading.take, Reading.takeForm, Reading.addTarget, expects, apart,
        fails]
  | noCallee =>
      cases depth_eq
      simp [goOn, run, Reading.take, Reading.takeForm, Reading.finish, expects]
  | calleeFails noName =>
      cases depth_eq
      exact run_refused_callee expects noName _ _
  | @call callee _ _ _ _ _ _ _ _ induction =>
      cases depth_eq
      have inside := @induction (reading.openCall callee) rfl rfl rfl
      rw [run_callee expects, inside]
      exact run_close expects _ _ _ _
  | callFails _ induction =>
      cases depth_eq
      rw [run_callee expects]
      exact induction rfl rfl rfl
  | argumentVar enclosed =>
      have inCall : reading.place = .arguments := by
        simp [Reading.place, depth_eq, enclosed]
      exact run_argumentVar expects inCall _ _
  | noDeclared layoutTrivia noName =>
      rw [run_var_layout expects depth_eq layoutTrivia,
        run_refused_target rfl noName]
      simp [goOn, Reading.add, depth_eq]
  | declaredFails layoutTrivia fails =>
      rw [run_var_layout expects depth_eq layoutTrivia,
        run_refused_declared rfl fails]
      simp [goOn, Reading.add, depth_eq]
  | declaration declares final =>
      obtain ⟨literal, rest, isLiteral, next⟩ := declares.exists_literal
      obtain ⟨answered, rfl⟩ := final.eq_of_literal isLiteral next
      cases answered
      have outside : reading.place = .topLevel := by
        simp [Reading.place, depth_eq, declares.outside]
      rw [declares.after_eq, next, run_declaration expects outside
        declares.layoutTrivia declares.spacingTrivia isLiteral]
      simp [goOn, declares.before_eq]
  | valueFails declares final =>
      obtain ⟨literal, rest, isLiteral, next⟩ := declares.exists_literal
      cases (final.eq_of_literal isLiteral next).1
  | stop stops => rw [run_stop expects fits stops, depth_eq]
  | @more _ forms others _ next exit goesOn first _ firstInduction
      tailInduction =>
      have sameDepth : (reading.add forms).depth = next.depth :=
        depth_eq.trans first.depth_eq_of_ok.symm
      calc
        run reading _ _ = run (reading.add forms) next.before next.after :=
          firstInduction expects depth_eq (fits.form_of_forms goesOn)
        _ = goOn (reading.add forms) exit (.ok others) :=
          tailInduction expects sameDepth (fits.forms_of_forms _)
        _ = goOn reading exit (.ok (forms ++ others)) := by simp [goOn]
  | firstFails goesOn _ induction =>
      exact induction expects depth_eq (fits.form_of_forms goesOn)
  | @othersFail _ forms _ next exit error goesOn first _ firstInduction
      tailInduction =>
      have sameDepth : (reading.add forms).depth = next.depth :=
        depth_eq.trans first.depth_eq_of_ok.symm
      calc
        run reading _ _ = run (reading.add forms) next.before next.after :=
          firstInduction expects depth_eq (fits.form_of_forms goesOn)
        _ = goOn (reading.add forms) exit (.error error) :=
          tailInduction expects sameDepth (fits.forms_of_forms _)

namespace Reader

/-- A form that fails is the failure of a reading that begins at it, if there is
a token to begin at. -/
theorem read_eq_of_form_error {entry exit : Reader} {error : ReadError}
    (remains : entry.after ≠ [])
    (fails : Scope.form.Reads entry (.error error) exit) :
    entry.read = (.error error, exit) :=
  @Scope.Reads.run_eq _ _ _ _ fails (.start entry.depth) rfl rfl
    ⟨remains, fun _ => rfl⟩

theorem read_eq_of_reads {reader exit : Reader}
    {answer : Except ReadError (List Form)}
    (reads : (Scope.forms .program).Reads reader answer exit) :
    reader.read = (answer, exit) := by
  have goesOn := @Scope.Reads.run_eq _ _ _ _ reads (.start reader.depth) rfl rfl rfl
  cases answer with
  | error error => exact goesOn
  | ok forms =>
      have atEnd := FormList.eq_nil_of_stop?_program reads.stop?_of_ok
      have sameDepth := reads.depth_eq_of_ok
      obtain ⟨before, after, depth⟩ := exit
      simp only at atEnd sameDepth
      subst atEnd sameDepth
      rw [read, goesOn]
      simp [goOn, run, Reading.finish, Reading.add, Reading.start, Reading.forms]

/-- A reading is exactly what reading a program form by form tells. -/
theorem reads_program_iff (reader exit : Reader)
    (answer : Except ReadError (List Form)) :
    (Scope.forms .program).Reads reader answer exit ↔
      reader.read = (answer, exit) := by
  constructor
  · exact read_eq_of_reads
  · intro outcome
    obtain ⟨other, last, reads⟩ := Scope.ends_forms .program reader
    obtain ⟨rfl, rfl⟩ := Prod.mk.inj ((read_eq_of_reads reads).symm.trans outcome)
    exact reads

end Reader

end ParenCall
