import ParenCall.Proofs.ReadingWellFormedForms

/-!
# Accepted programs

Reading is a bijection between the accepted lists of tokens and the well-formed
programs, and writing the tokens of a program down is its inverse.

That the tokens of a well-formed program are accepted has been shown where
well-formed forms are read.  For the other direction, an accepted reading is
followed token by token: what it has still to take begins with well-formed
forms up to the end of the tokens, or up to the parenthesis that closes the
call in which the reading stands.
-/

namespace ParenCall

namespace Reader

open Form

/-- Tokens with a literal ahead begin with layout and that literal. -/
theorem exists_spacing_of_literalFollows {tokens : List Token}
    (follows : literalFollows tokens) :
    ∃ (spacing : List Form) (literal : Form) (rest : List Token),
      (∀ form ∈ spacing, form.isTrivia) ∧ literal.isLiteral ∧
        tokens = unreadAll spacing ++ (literal.unread ++ rest) := by
  induction tokens with
  | nil => simp at follows
  | cons token tokens induction =>
      by_cases tokenTrivia : token.isTrivia
      · obtain ⟨form, isTrivia, unreads⟩ := exists_trivia_unread tokenTrivia
        simp only [literalFollows_cons, tokenTrivia, if_true] at follows
        obtain ⟨spacing, literal, rest, spacingTrivia, isLiteral, rfl⟩ :=
          induction follows
        refine ⟨form :: spacing, literal, rest, ?_, isLiteral, ?_⟩
        · simpa [isTrivia] using spacingTrivia
        · rw [unreadAll_trivia isTrivia, unreads]
          rfl
      · simp only [literalFollows_cons, tokenTrivia, Bool.false_eq_true,
          if_false] at follows
        obtain ⟨literal, isLiteral, unreads⟩ := exists_literal_unread follows
        refine ⟨[], literal, tokens, by simp, isLiteral, ?_⟩
        rw [unreads]
        rfl

/-- A reading that waits for a declared name finds it after layout. -/
theorem exists_layout_of_run_target {tokens : List Token} {reading : Reading}
    (expects : reading.expecting = .target) {before : List Token}
    {program : List Form} (accepts : (run reading before tokens).1 = .ok program) :
    ∃ (layout : List Form) (name : String) (rest : List Token),
      (∀ form ∈ layout, form.isTrivia) ∧ literalFollows rest ∧
        tokens = unreadAll layout ++ .identifier name :: rest := by
  induction tokens generalizing reading before with
  | nil => simp [run, Reading.finish, expects] at accepts
  | cons token tokens induction =>
      by_cases tokenTrivia : token.isTrivia
      · obtain ⟨form, isTrivia, unreads⟩ := exists_trivia_unread tokenTrivia
        have waits : reading.expecting ≠ .callee := by simp [expects]
        have reads := run_trivia waits isTrivia before tokens
        rw [unreads, List.singleton_append] at reads
        rw [reads] at accepts
        obtain ⟨layout, name, rest, layoutTrivia, follows, rfl⟩ :=
          induction (by simpa using expects) accepts
        refine ⟨form :: layout, name, rest, ?_, follows, ?_⟩
        · simpa [isTrivia] using layoutTrivia
        · rw [unreadAll_trivia isTrivia, unreads]
          rfl
      · cases token with
        | identifier name =>
            refine ⟨[], name, tokens, by simp, ?_, rfl⟩
            rw [← checkTarget_eq_ok_iff name]
            cases checked : checkTarget name tokens with
            | ok => rfl
            | error =>
                simp [run, Reading.take, Reading.takeTarget, Reading.addTarget,
                  expects, checked] at accepts
        | blank | newline => simp [Token.isTrivia] at tokenTrivia
        | _ => simp [run, Reading.take, Reading.takeTarget, expects] at accepts

/-- Whether tokens begin with the forms of a list in the given place, which
reaches up to the end or up to the parenthesis that closes it. -/
def BeginsWithForms (place : Place) (tokens : List Token) : Prop :=
  ∃ (forms : List Form) (rest : List Token),
    WellFormed place forms ∧ tokens = unreadAll forms ++ rest ∧
      (rest = [] ∨ ∃ following, rest = .rightParen :: following)

namespace BeginsWithForms

variable {place : Place} {tokens : List Token}

theorem trivia {form : Form} (isTrivia : form.isTrivia)
    (begins : BeginsWithForms place tokens) :
    BeginsWithForms place (form.unread ++ tokens) := by
  obtain ⟨forms, rest, wellFormed, rfl, stops⟩ := begins
  refine ⟨form :: forms, rest, .trivia isTrivia wellFormed, ?_, stops⟩
  rw [unreadAll_trivia isTrivia, List.append_assoc]

theorem literal {form : Form} (isLiteral : form.isLiteral)
    (begins : BeginsWithForms place tokens) :
    BeginsWithForms place (form.unread ++ tokens) := by
  obtain ⟨forms, rest, wellFormed, rfl, stops⟩ := begins
  refine ⟨form :: forms, rest, .literal isLiteral wellFormed, ?_, stops⟩
  rw [unreadAll_literal isLiteral, List.append_assoc]

theorem equal (begins : BeginsWithForms place tokens) :
    BeginsWithForms place (.equal :: tokens) := by
  obtain ⟨forms, rest, wellFormed, rfl, stops⟩ := begins
  refine ⟨.equals :: forms, rest, .equals wellFormed, ?_, stops⟩
  rw [unreadAll_equals, List.cons_append]

theorem target (name : String) (follows : literalFollows tokens)
    (begins : BeginsWithForms place tokens) :
    BeginsWithForms place (.identifier name :: tokens) := by
  obtain ⟨forms, rest, wellFormed, rfl, stops⟩ := begins
  have next := literalNext_of_literalFollows wellFormed stops follows
  refine ⟨.name name :: .blank :: .equals :: forms, rest,
    .target next wellFormed, ?_, stops⟩
  rw [unreadAll_target, List.cons_append]

theorem call (callee : String) {arguments : List Form}
    (inner : WellFormed .arguments arguments)
    (begins : BeginsWithForms place tokens) :
    BeginsWithForms place
      (.leftParen :: .identifier callee ::
        (unreadAll arguments ++ .rightParen :: tokens)) := by
  obtain ⟨forms, rest, wellFormed, rfl, stops⟩ := begins
  refine ⟨.call callee arguments :: forms, rest, .call inner wellFormed, ?_,
    stops⟩
  simp [unreadAll_call]

theorem argumentVar (begins : BeginsWithForms .arguments tokens) :
    BeginsWithForms .arguments (.var :: tokens) := by
  obtain ⟨forms, rest, wellFormed, rfl, stops⟩ := begins
  refine ⟨.var :: forms, rest, .argumentVar wellFormed, ?_, stops⟩
  rw [unreadAll_var, List.cons_append]

theorem declaration (name : String) {layout spacing : List Form}
    {literal : Form} (layoutTrivia : ∀ form ∈ layout, form.isTrivia)
    (spacingTrivia : ∀ form ∈ spacing, form.isTrivia)
    (isLiteral : literal.isLiteral)
    (begins : BeginsWithForms .topLevel tokens) :
    BeginsWithForms .topLevel
      (.var :: (unreadAll layout ++ .identifier name ::
        (unreadAll spacing ++ (literal.unread ++ tokens)))) := by
  obtain ⟨forms, rest, wellFormed, rfl, stops⟩ := begins
  refine ⟨.var :: (layout ++ .name name :: .blank :: .equals ::
      (spacing ++ literal :: .semicolon :: forms)), rest,
    .declaration layoutTrivia spacingTrivia isLiteral wellFormed, ?_, stops⟩
  rw [unreadAll_declaration layoutTrivia spacingTrivia isLiteral]
  simp

end BeginsWithForms

theorem literalFollows_of_run_identifier {reading : Reading}
    (expects : reading.expecting = .form) {name : String}
    {before tokens : List Token} {program : List Form}
    (accepts : (run reading before (.identifier name :: tokens)).1 =
      .ok program) :
    literalFollows tokens := by
  rw [← checkTarget_eq_ok_iff name]
  by_cases callee : nearestSolid before = some .leftParen
  · simp [run, Reading.take, Reading.takeForm, expects, callee] at accepts
  · cases checked : checkTarget name tokens with
    | ok => rfl
    | error =>
        simp [run, Reading.take, Reading.takeForm, Reading.addTarget, expects,
          callee, checked] at accepts

theorem exists_callee_of_run_leftParen {reading : Reading}
    (expects : reading.expecting = .form) {before tokens : List Token}
    {program : List Form}
    (accepts : (run reading before (.leftParen :: tokens)).1 = .ok program) :
    ∃ (callee : String) (rest : List Token),
      tokens = .identifier callee :: rest := by
  cases tokens with
  | nil =>
      simp [run, Reading.take, Reading.takeForm, Reading.finish, expects]
        at accepts
  | cons token rest =>
      cases token with
      | identifier callee => exact ⟨callee, rest, rfl⟩
      | _ =>
          simp [run, Reading.take, Reading.takeForm, Reading.takeCallee,
            expects] at accepts

/-- Outside every call, an accepted reading finds a whole declaration after
the keyword. -/
theorem exists_declaration_of_run_var {reading : Reading}
    (expects : reading.expecting = .form) (outside : reading.place = .topLevel)
    {before tokens : List Token} {program : List Form}
    (accepts : (run reading before (.var :: tokens)).1 = .ok program) :
    ∃ (layout : List Form) (name : String) (spacing : List Form)
      (literal : Form) (rest : List Token),
      (∀ form ∈ layout, form.isTrivia) ∧ (∀ form ∈ spacing, form.isTrivia) ∧
        literal.isLiteral ∧
        tokens = unreadAll layout ++ .identifier name ::
          (unreadAll spacing ++ (literal.unread ++ rest)) := by
  rw [run_cons_of_take (take_var_of_topLevel expects outside before tokens)]
    at accepts
  obtain ⟨layout, name, following, layoutTrivia, follows, rfl⟩ :=
    exists_layout_of_run_target rfl accepts
  obtain ⟨spacing, literal, rest, spacingTrivia, isLiteral, rfl⟩ :=
    exists_spacing_of_literalFollows follows
  exact ⟨layout, name, spacing, literal, rest, layoutTrivia, spacingTrivia,
    isLiteral, rfl⟩

/-- The tokens that an accepted reading has still to take begin with
well-formed forms. -/
theorem beginsWithForms_of_run (length : Nat) {tokens : List Token}
    (bound : tokens.length ≤ length) {reading : Reading}
    {before : List Token} {program : List Form}
    (accepts : (run reading before tokens).1 = .ok program)
    (expects : reading.expecting = .form)
    {place : Place} (stands : reading.place = place)
    (noCallee : nearestSolid before ≠ some .leftParen) :
    BeginsWithForms place tokens := by
  -- The tokens after a call are not the tail of its own tokens, so the
  -- induction is on the number of tokens.
  induction length generalizing tokens reading before place with
  | zero =>
      have empty : tokens = [] := List.length_eq_zero_iff.mp (by omega)
      exact ⟨[], [], .nil, by simp [empty, unreadAll], Or.inl rfl⟩
  | succ length induction =>
      cases tokens with
      | nil => exact ⟨[], [], .nil, rfl, Or.inl rfl⟩
      | cons token tokens =>
          have tailBound : tokens.length ≤ length := by simpa using bound
          by_cases tokenTrivia : token.isTrivia
          · obtain ⟨form, isTrivia, unreads⟩ := exists_trivia_unread tokenTrivia
            have tokensEq : token :: tokens = form.unread ++ tokens := by
              simp [unreads]
            rw [tokensEq] at accepts ⊢
            rw [run_trivia (by simp [expects]) isTrivia] at accepts
            refine .trivia isTrivia
              (induction tailBound accepts expects stands ?_)
            simpa [unreads, tokenTrivia] using noCallee
          by_cases tokenLiteral : token.isLiteral
          · obtain ⟨form, isLiteral, unreads⟩ := exists_literal_unread tokenLiteral
            have tokensEq : token :: tokens = form.unread ++ tokens := by
              simp [unreads]
            rw [tokensEq] at accepts ⊢
            rw [run_literal expects isLiteral] at accepts
            exact .literal isLiteral (induction tailBound accepts expects
              stands (nearestSolid_literal_append isLiteral before))
          cases token with
          | equal =>
              rw [run_equal expects] at accepts
              exact .equal (induction tailBound accepts expects stands
                (by simp [Token.isTrivia]))
          | identifier name =>
              have follows := literalFollows_of_run_identifier expects accepts
              rw [run_target expects noCallee name follows] at accepts
              exact .target name follows (induction tailBound accepts expects
                stands (by simp [Token.isTrivia]))
          | leftParen =>
              obtain ⟨callee, rest, rfl⟩ :=
                exists_callee_of_run_leftParen expects accepts
              rw [run_callee expects] at accepts
              obtain ⟨arguments, following, inner, rfl, stops⟩ :=
                induction (by simp at tailBound; omega) accepts rfl
                  (Reading.place_openCall reading callee)
                  (by simp [Token.isTrivia])
              rw [run_unreadAll inner rfl (by simp)
                (by simp [Token.isTrivia])] at accepts
              rcases stops with rfl | ⟨rest, rfl⟩
              · simp [run, Reading.finish, Reading.openCall, Reading.add] at accepts
              · rw [run_close expects] at accepts
                exact .call callee inner (induction
                  (by simp at tailBound; omega) accepts expects stands
                  (by simp [Token.isTrivia]))
          | rightParen => exact ⟨[], _, .nil, rfl, Or.inr ⟨tokens, rfl⟩⟩
          | var =>
              cases place with
              | arguments =>
                  rw [run_argumentVar expects stands] at accepts
                  exact .argumentVar (induction tailBound accepts expects stands
                    (by simp [Token.isTrivia]))
              | topLevel =>
                  obtain ⟨layout, name, spacing, literal, rest, layoutTrivia,
                    spacingTrivia, isLiteral, rfl⟩ :=
                    exists_declaration_of_run_var expects stands accepts
                  rw [run_declaration expects stands layoutTrivia spacingTrivia
                    isLiteral] at accepts
                  exact .declaration name layoutTrivia spacingTrivia isLiteral
                    (induction (by simp at tailBound; omega) accepts expects
                      stands (nearestSolid_literal_append isLiteral _))
          | blank | newline => simp [Token.isTrivia] at tokenTrivia
          | number | string => simp [Token.isLiteral] at tokenLiteral

end Reader

open Form

theorem readForms_unreadAll_append {forms : List Form}
    (wellFormed : WellFormed .topLevel forms) (rest : List Token) :
    readForms (unreadAll forms ++ rest) =
      (Reader.run ((Reading.start 0).add forms) (unreadAll forms).reverse
        rest).1 := by
  have outside : (Reading.start 0).place = .topLevel := rfl
  have noCallee : nearestSolid [] ≠ some .leftParen := by simp
  have reads := Reader.run_unreadAll wellFormed rfl outside noCallee rest
  rw [List.append_nil] at reads
  exact congrArg Prod.fst reads

theorem readForms_unreadAll {forms : List Form}
    (wellFormed : WellFormed .topLevel forms) :
    readForms (unreadAll forms) = .ok forms := by
  have reads := readForms_unreadAll_append wellFormed []
  rw [List.append_nil] at reads
  rw [reads]
  simp [Reader.run, Reading.finish, Reading.start, Reading.add, Reading.forms]

theorem wellFormed_of_readForms {tokens : List Token} {forms : List Form}
    (accepts : readForms tokens = .ok forms) :
    WellFormed .topLevel forms ∧ unreadAll forms = tokens := by
  obtain ⟨program, rest, wellFormed, rfl, stops⟩ :=
    Reader.beginsWithForms_of_run tokens.length (Nat.le_refl _) accepts rfl rfl
      (by simp [Reader.ofTokens])
  rcases stops with rfl | ⟨following, rfl⟩
  · rw [List.append_nil, readForms_unreadAll wellFormed] at accepts
    rw [List.append_nil]
    cases accepts
    exact ⟨wellFormed, rfl⟩
  · rw [readForms_unreadAll_append wellFormed] at accepts
    simp [Reader.run, Reading.take, Reading.takeForm, Reading.closeCall,
      Reading.start, Reading.add] at accepts

/-- Reading accepts exactly the tokens of well-formed programs, and gives back
the program whose tokens they are. -/
theorem readForms_eq_ok_iff (tokens : List Token) (forms : List Form) :
    readForms tokens = .ok forms ↔
      WellFormed .topLevel forms ∧ unreadAll forms = tokens := by
  constructor
  · exact wellFormed_of_readForms
  · rintro ⟨wellFormed, rfl⟩
    exact readForms_unreadAll wellFormed

end ParenCall
