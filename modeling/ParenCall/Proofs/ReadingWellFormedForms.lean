import ParenCall.Proofs.WellFormedForms

/-!
# Reading the tokens of well-formed forms

Each kind of form is read in one go: from a state that waits for any form, the
tokens of the form lead to the state with that form added.  A call leads back
to the same state because closing it takes away what opening it has put on the
open calls.  Hence the tokens of a well-formed list, read in its place, add
exactly that list, whatever tokens follow.
-/

namespace ParenCall

namespace Reading

/-- Where the list being filled stands. -/
def place (reading : Reading) : Place :=
  if 0 < reading.depth then .arguments else .topLevel

@[simp] theorem place_add (reading : Reading) (forms : List Form) :
    (reading.add forms).place = reading.place :=
  rfl

@[simp] theorem place_openCall (reading : Reading) (callee : String) :
    (reading.openCall callee).place = .arguments := by
  simp [place, openCall]

@[simp] theorem expecting_add (reading : Reading) (forms : List Form) :
    (reading.add forms).expecting = reading.expecting :=
  rfl

@[simp] theorem add_add (reading : Reading) (first second : List Form) :
    (reading.add first).add second = reading.add (first ++ second) := by
  simp [add]

/-- A call that is opened, filled and closed again is one more form. -/
theorem closeCall_add_openCall {reading : Reading}
    (expects : reading.expecting = .form) (callee : String)
    (arguments : List Form) :
    ((reading.openCall callee).add arguments).closeCall =
      .ok (reading.add [.call callee arguments]) := by
  simp [closeCall, openCall, add, forms, expects]

end Reading

namespace Reader

open Form

theorem run_cons_of_take {reading next : Reading} {before rest : List Token}
    {token : Token} (takes : reading.take before token rest = .ok next) :
    run reading before (token :: rest) = run next (token :: before) rest := by
  simp [run, takes]

/-- Layout is read in every state that does not wait for a callee. -/
theorem run_trivia {reading : Reading} (expects : reading.expecting ≠ .callee)
    {form : Form} (isTrivia : form.isTrivia) (before rest : List Token) :
    run reading before (form.unread ++ rest) =
      run (reading.add [form]) (form.unread ++ before) rest := by
  cases form with
  | blank | newline =>
      apply run_cons_of_take
      cases expecting : reading.expecting <;>
        simp_all [Reading.take, Reading.takeForm, Reading.takeTarget]
  | _ => simp [Form.isTrivia] at isTrivia

theorem run_layout {layout : List Form}
    (layoutTrivia : ∀ form ∈ layout, form.isTrivia) {reading : Reading}
    (expects : reading.expecting ≠ .callee) (before rest : List Token) :
    run reading before (unreadAll layout ++ rest) =
      run (reading.add layout) ((unreadAll layout).reverse ++ before)
        rest := by
  induction layout generalizing reading before with
  | nil => rfl
  | cons form layout induction =>
      have isTrivia : form.isTrivia := layoutTrivia form (by simp)
      obtain ⟨token, tokens, -⟩ := exists_unread_of_isTrivia isTrivia
      rw [unreadAll_trivia isTrivia, List.append_assoc,
        run_trivia expects isTrivia,
        induction fun other member => layoutTrivia other (by simp [member])]
      · simp [tokens]
      · exact expects

/-- A literal is one more form, unless a declaration waits for it. -/
theorem run_literal {reading : Reading} (expects : reading.expecting = .form)
    {form : Form} (isLiteral : form.isLiteral) (before rest : List Token) :
    run reading before (form.unread ++ rest) =
      run (reading.add [form]) (form.unread ++ before) rest := by
  cases form with
  | number | string =>
      apply run_cons_of_take
      simp [Reading.take, Reading.takeForm, Reading.addLiteral, expects]
  | _ => simp [Form.isLiteral] at isLiteral

/-- The literal that a declaration waits for also closes it. -/
theorem run_value {reading : Reading} (expects : reading.expecting = .value)
    {form : Form} (isLiteral : form.isLiteral) (before rest : List Token) :
    run reading before (form.unread ++ rest) =
      run { reading.add [form, .semicolon] with expecting := .form }
        (form.unread ++ before) rest := by
  cases form with
  | number | string =>
      apply run_cons_of_take
      simp [Reading.take, Reading.takeForm, Reading.addLiteral, expects]
  | _ => simp [Form.isLiteral] at isLiteral

theorem run_equal {reading : Reading} (expects : reading.expecting = .form)
    (before rest : List Token) :
    run reading before (.equal :: rest) =
      run (reading.add [.equals]) (.equal :: before) rest := by
  apply run_cons_of_take
  simp [Reading.take, Reading.takeForm, expects]

/-- A name that is no callee is a target when a literal follows. -/
theorem run_target {reading : Reading} (expects : reading.expecting = .form)
    {before : List Token} (noCallee : nearestSolid before ≠ some .leftParen)
    (name : String) {rest : List Token} (follows : literalFollows rest) :
    run reading before (.identifier name :: rest) =
      run (reading.add [.name name, .blank, .equals])
        (.identifier name :: before) rest := by
  apply run_cons_of_take
  have checks := (checkTarget_eq_ok_iff name rest).mpr follows
  simp [Reading.take, Reading.takeForm, Reading.addTarget, Reading.add,
    expects, noCallee, checks]

/-- A left parenthesis and the name right after it open a call. -/
theorem run_callee {reading : Reading} (expects : reading.expecting = .form)
    (callee : String) (before rest : List Token) :
    run reading before (.leftParen :: .identifier callee :: rest) =
      run (reading.openCall callee)
        (.identifier callee :: .leftParen :: before) rest := by
  have opens : reading.take before .leftParen (.identifier callee :: rest) =
      .ok { reading with expecting := .callee } := by
    simp [Reading.take, Reading.takeForm, expects]
  rw [run_cons_of_take opens]
  apply run_cons_of_take
  rfl

/-- A right parenthesis closes the call opened last. -/
theorem run_close {reading : Reading} (expects : reading.expecting = .form)
    (callee : String) (arguments : List Form) (before rest : List Token) :
    run ((reading.openCall callee).add arguments) before (.rightParen :: rest) =
      run (reading.add [.call callee arguments]) (.rightParen :: before)
        rest := by
  apply run_cons_of_take
  exact Reading.closeCall_add_openCall expects callee arguments

theorem run_argumentVar {reading : Reading}
    (expects : reading.expecting = .form) (inCall : reading.place = .arguments)
    (before rest : List Token) :
    run reading before (.var :: rest) =
      run (reading.add [.var]) (.var :: before) rest := by
  apply run_cons_of_take
  have enclosed : 0 < reading.depth := by
    simpa [Reading.place, Nat.pos_iff_ne_zero] using inCall
  simp [Reading.take, Reading.takeForm, Reading.addVar, expects, enclosed]

theorem take_var_of_topLevel {reading : Reading}
    (expects : reading.expecting = .form) (outside : reading.place = .topLevel)
    (before rest : List Token) :
    reading.take before .var rest =
      .ok { reading.add [.var] with expecting := .target } := by
  have unenclosed : ¬ 0 < reading.depth := by
    simpa [Reading.place] using outside
  simp [Reading.take, Reading.takeForm, Reading.addVar, expects, unenclosed]

/-- Outside every call the keyword begins a declaration, which ends with the
literal of its target. -/
theorem run_declaration {reading : Reading}
    (expects : reading.expecting = .form) (outside : reading.place = .topLevel)
    {layout spacing : List Form} {literal : Form}
    (layoutTrivia : ∀ form ∈ layout, form.isTrivia)
    (spacingTrivia : ∀ form ∈ spacing, form.isTrivia)
    (isLiteral : literal.isLiteral) (name : String)
    (before rest : List Token) :
    run reading before
        (.var :: (unreadAll layout ++ .identifier name ::
          (unreadAll spacing ++ (literal.unread ++ rest)))) =
      run (reading.add (.var :: (layout ++ .name name :: .blank :: .equals ::
          (spacing ++ [literal, .semicolon]))))
        (literal.unread ++ ((unreadAll spacing).reverse ++ .identifier name ::
          ((unreadAll layout).reverse ++ .var :: before))) rest := by
  rw [run_cons_of_take (take_var_of_topLevel expects outside before _),
    run_layout layoutTrivia (by simp)]
  have follows :
      literalFollows (unreadAll spacing ++ (literal.unread ++ rest)) := by
    have next := literalFollows_unreadAll_append
      (literalNext_layout_append spacingTrivia isLiteral []) rest
    rwa [unreadAll_layout_append spacingTrivia, unreadAll_literal isLiteral,
      unreadAll, List.append_nil, List.append_assoc] at next
  have target : ∀ reading before, reading.expecting = .target →
      run reading before (.identifier name ::
          (unreadAll spacing ++ (literal.unread ++ rest))) =
        run { reading.add [.name name, .blank, .equals] with expecting := .value }
          (.identifier name :: before)
          (unreadAll spacing ++ (literal.unread ++ rest)) := by
    intro reading before expects
    apply run_cons_of_take
    simp [Reading.take, Reading.takeTarget, Reading.addTarget, expects,
      (checkTarget_eq_ok_iff name _).mpr follows]
  rw [target _ _ rfl, run_layout spacingTrivia (by simp),
    run_value rfl isLiteral]
  simp [Reading.add, expects]

/-- Reading the tokens of well-formed forms adds exactly these forms. -/
theorem run_unreadAll {place : Place} {forms : List Form}
    (wellFormed : WellFormed place forms) {reading : Reading}
    (expects : reading.expecting = .form) (stands : reading.place = place)
    {before : List Token} (noCallee : nearestSolid before ≠ some .leftParen)
    (rest : List Token) :
    run reading before (unreadAll forms ++ rest) =
      run (reading.add forms) ((unreadAll forms).reverse ++ before) rest := by
  induction wellFormed generalizing reading before rest with
  | nil => rfl
  | trivia isTrivia tail induction =>
      obtain ⟨token, tokens, tokenTrivia⟩ := exists_unread_of_isTrivia isTrivia
      rw [unreadAll_trivia isTrivia, List.append_assoc,
        run_trivia (by simp [expects]) isTrivia,
        induction (by simpa using expects) (by simpa using stands)]
      · simp [tokens]
      · simpa [tokens, tokenTrivia] using noCallee
  | literal isLiteral tail induction =>
      obtain ⟨token, tokens, tokenLiteral⟩ :=
        exists_unread_of_isLiteral isLiteral
      rw [unreadAll_literal isLiteral, List.append_assoc,
        run_literal expects isLiteral,
        induction (by simpa using expects) (by simpa using stands)]
      · simp [tokens]
      · exact nearestSolid_literal_append isLiteral _
  | equals tail induction =>
      rw [unreadAll_equals, List.cons_append, run_equal expects,
        induction (by simpa using expects) (by simpa using stands)
          (by simp [Token.isTrivia])]
      simp
  | call inner tail innerInduction induction =>
      rw [unreadAll_call]
      simp only [List.cons_append, List.append_assoc]
      rw [run_callee expects,
        innerInduction rfl (by simp) (by simp [Token.isTrivia]),
        run_close expects,
        induction (by simpa using expects) (by simpa using stands)
          (by simp [Token.isTrivia])]
      simp
  | target next tail induction =>
      rw [unreadAll_target, List.cons_append,
        run_target expects noCallee _ (literalFollows_unreadAll_append next rest),
        induction (by simpa using expects) (by simpa using stands)
          (by simp [Token.isTrivia])]
      simp
  | argumentVar tail induction =>
      rw [unreadAll_var, List.cons_append, run_argumentVar expects stands,
        induction (by simpa using expects) (by simpa using stands)
          (by simp [Token.isTrivia])]
      simp
  | declaration layoutTrivia spacingTrivia isLiteral tail induction =>
      obtain ⟨token, tokens, tokenLiteral⟩ :=
        exists_unread_of_isLiteral isLiteral
      rw [unreadAll_declaration layoutTrivia spacingTrivia isLiteral]
      simp only [List.cons_append, List.append_assoc]
      rw [run_declaration expects stands layoutTrivia spacingTrivia isLiteral,
        induction (by simpa using expects) (by simpa using stands)]
      · simp [tokens]
      · exact nearestSolid_literal_append isLiteral _

end Reader

end ParenCall
