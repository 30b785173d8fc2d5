import ParenCall.Proofs.LegibleLowering

/-!
# Faithful outlines

The outline of a program writes its forms with one space between two
neighbours, and the strings in it are written as they are.  A string may hold
spaces, parentheses, underscores and line feeds, so it may look like other
forms.  It holds no quote, however, and this is enough: cut into lexemes, an
outline shows every form by its first lexeme, a call by the parenthesis that
opens it, and the forms of a call end where no space follows.

So the outline of a source text tells its forms.  The forms tell the tokens,
and the tokens tell everything that is made of them.
-/

namespace ParenCall

open Phrase (Separated separated_cons_iff)

/-- Whether lexemes begin with neither a word nor a number, so that any lexeme
ends before them. -/
def BeginsApart (parts : List Lexeme) : Prop :=
  ∀ next ∈ parts.head?, next.isWord = false ∧ next.isNumber = false

theorem beginsApart_sign (character : Char) (parts : List Lexeme) :
    BeginsApart (.sign character :: parts) := by
  intro next isHead
  cases isHead
  exact ⟨rfl, rfl⟩

theorem Phrase.Separated.before {lexeme : Lexeme} {parts : List Lexeme}
    (separated : Separated parts) (begins : BeginsApart parts)
    (regular : lexeme.Regular) : Separated (lexeme :: parts) := by
  refine separated_cons_iff.mpr ⟨regular, ?_, separated⟩
  intro next isHead
  simp [Lexeme.Apart, begins next isHead]

namespace Form

mutual

/-- The lexemes of the outline of a form. -/
def outlineLexemes : Form → List Lexeme
  | .call callee arguments =>
      .sign '(' :: .word callee.toList ::
        (spacedLexemes arguments ++ [.sign ')'])
  | .number digits => [.number digits.toList]
  | .string content => [.string content.toList]
  | .name identifier => [.word identifier.toList]
  | .blank => [.sign '_']
  | .newline => [.sign '\\', .word ['n']]
  | .var => [.word "var".toList]
  | .equals => [.sign '=']
  | .semicolon => [.sign ';']

/-- The lexemes of the outlines of neighbouring forms, each after a space. -/
def spacedLexemes : List Form → List Lexeme
  | [] => []
  | form :: forms => .sign ' ' :: (outlineLexemes form ++ spacedLexemes forms)

end

section Spelling

theorem toList_intercalate_space (text : String) (texts : List String) :
    (String.intercalate " " (text :: texts)).toList =
      text.toList ++ texts.flatMap fun other => ' ' :: other.toList := by
  induction texts generalizing text with
  | nil => simp
  | cons next texts induction =>
      rw [String.intercalate_cons_cons, String.toList_append,
        String.toList_append, induction]
      simp

mutual

theorem toList_outline (form : Form) :
    form.outline.toList = form.outlineLexemes.flatMap Lexeme.characters := by
  cases form with
  | call callee arguments =>
      have inner := flatMap_outlines arguments
      rw [outline, String.toList_append, String.toList_append,
        toList_intercalate_space, inner]
      simp [outlineLexemes, Lexeme.characters]
  | _ => simp [outline, outlineLexemes, Lexeme.characters]

theorem flatMap_outlines (forms : List Form) :
    (outlines forms).flatMap (fun text => ' ' :: text.toList) =
      (spacedLexemes forms).flatMap Lexeme.characters := by
  cases forms with
  | nil => rfl
  | cons form forms =>
      have first := toList_outline form
      have rest := flatMap_outlines forms
      simp [outlines, spacedLexemes, first, rest, Lexeme.characters]

end

/-- The outline of a program is spelled by its lexemes, without the space
before the first form. -/
theorem toList_formsOutline (forms : List Form) :
    (formsOutline forms).toList =
      (spacedLexemes forms).tail.flatMap Lexeme.characters := by
  cases forms with
  | nil => simp [formsOutline, outlines, spacedLexemes]
  | cons form forms =>
      rw [formsOutline, outlines, toList_intercalate_space, flatMap_outlines,
        toList_outline]
      simp [spacedLexemes]

end Spelling

/-- Whether a form is no call and has the text of its kind. -/
def IsSpelled : Form → Prop
  | .call _ _ => False
  | .number digits => (Token.number digits).HasSpelling
  | .string content => (Token.string content).HasSpelling
  | .name identifier => (Token.identifier identifier).HasSpelling
  | .blank | .newline | .var | .equals | .semicolon => True

/-- The lists of forms in which every text is of its kind, at any depth. -/
inductive Spelled : List Form → Prop
  | nil : Spelled []
  | leaf {form : Form} {forms : List Form} (spelled : form.IsSpelled)
      (tail : Spelled forms) : Spelled (form :: forms)
  | call {callee : String} {arguments forms : List Form}
      (named : (Token.identifier callee).HasSpelling)
      (inner : Spelled arguments) (tail : Spelled forms) :
      Spelled (.call callee arguments :: forms)

section Separation

variable {form : Form} {forms : List Form} {rest : List Lexeme}

theorem beginsApart_spacedLexemes (forms : List Form)
    (begins : BeginsApart rest) : BeginsApart (spacedLexemes forms ++ rest) := by
  cases forms with
  | nil => exact begins
  | cons form forms => exact beginsApart_sign ' ' _

theorem IsSpelled.separated (spelled : form.IsSpelled)
    (restSeparated : Separated rest) (begins : BeginsApart rest) :
    Separated (form.outlineLexemes ++ rest) := by
  cases form with
  | call callee arguments => exact spelled.elim
  | number digits =>
      exact restSeparated.before begins
        ((@Token.hasSpelling_iff (.number digits)).mp spelled).1
  | string content =>
      exact restSeparated.before begins
        ((@Token.hasSpelling_iff (.string content)).mp spelled).1
  | name identifier =>
      exact restSeparated.before begins
        ((@Token.hasSpelling_iff (.identifier identifier)).mp spelled).1
  | newline =>
      have letter : Separated (.word ['n'] :: rest) :=
        restSeparated.before begins (by simp [Lexeme.Regular])
      exact letter.sign (by simp [Lexeme.Regular])
  | var => exact restSeparated.before begins (by simp [Lexeme.Regular])
  | blank | equals | semicolon =>
      exact restSeparated.sign (by simp [Lexeme.Regular])

/-- The lexemes of an outline are found again in its text. -/
theorem Spelled.separated (spelled : Spelled forms)
    (restSeparated : Separated rest) (begins : BeginsApart rest) :
    Separated (spacedLexemes forms ++ rest) := by
  induction spelled generalizing rest with
  | nil => exact restSeparated
  | @leaf form forms spelled tail induction =>
      have following := induction restSeparated begins
      have first := spelled.separated following
        (beginsApart_spacedLexemes forms begins)
      rw [spacedLexemes, List.cons_append, List.append_assoc]
      exact first.sign (by simp [Lexeme.Regular])
  | @call callee arguments forms named inner tail innerInduction induction =>
      have following := induction restSeparated begins
      have closed : Separated (.sign ')' :: (spacedLexemes forms ++ rest)) :=
        following.sign (by simp [Lexeme.Regular])
      have inside := innerInduction closed (beginsApart_sign ')' _)
      have regular := (Token.hasSpelling_iff.mp named).1
      have opened := inside.before
        (beginsApart_spacedLexemes arguments (beginsApart_sign ')' _)) regular
      simp only [spacedLexemes, outlineLexemes, List.cons_append,
        List.append_assoc, List.nil_append]
      exact (opened.sign (by simp [Lexeme.Regular])).sign
        (by simp [Lexeme.Regular])

theorem Spelled.lexemes_formsOutline (spelled : Spelled forms) :
    lexemes (formsOutline forms).toList = (spacedLexemes forms).tail := by
  have empty : Separated [] := ⟨by simp, by simp⟩
  have separated := spelled.separated empty (by simp [BeginsApart])
  rw [List.append_nil] at separated
  have tailSeparated : Separated (spacedLexemes forms).tail := by
    cases forms with
    | nil => exact separated
    | cons form forms => exact (separated_cons_iff.mp separated).2.2
  rw [toList_formsOutline]
  exact lexemes_flatMap_characters tailSeparated.1 tailSeparated.2

end Separation

section Decoding

/-- The form whose outline begins with a lexeme, unless the lexeme begins a
call or no form at all. -/
def ofFirstLexeme : Lexeme → Option Form
  | .word letters =>
      if letters = "var".toList then some .var
      else some (.name (.ofList letters))
  | .number digits => some (.number (.ofList digits))
  | .string content => some (.string (.ofList content))
  | .sign character =>
      if character = '_' then some .blank
      else if character = '\\' then some .newline
      else if character = '=' then some .equals
      else if character = ';' then some .semicolon
      else none

theorem IsSpelled.exists_first {form : Form} (spelled : form.IsSpelled) :
    ∃ lexeme following, form.outlineLexemes = lexeme :: following ∧
      ofFirstLexeme lexeme = some form := by
  cases form with
  | call callee arguments => exact spelled.elim
  | name identifier =>
      refine ⟨_, _, rfl, ?_⟩
      have notVar : identifier.toList ≠ "var".toList := by
        intro same
        exact spelled.2.1 (String.toList_inj.mp same)
      rw [ofFirstLexeme, if_neg notVar, String.ofList_toList]
  | _ =>
      refine ⟨_, _, rfl, ?_⟩
      simp [ofFirstLexeme]

theorem IsSpelled.outlineLexemes_ne_call {form : Form}
    (spelled : form.IsSpelled) (callee : String) (arguments : List Form)
    (rest otherRest : List Lexeme) :
    form.outlineLexemes ++ rest ≠
      (Form.call callee arguments).outlineLexemes ++ otherRest := by
  intro same
  obtain ⟨lexeme, following, lexemesEq, isFirst⟩ := spelled.exists_first
  rw [lexemesEq] at same
  simp only [outlineLexemes, List.cons_append, List.cons.injEq] at same
  rw [same.1] at isFirst
  simp [ofFirstLexeme] at isFirst

/-- Two forms other than calls are told apart by their first lexemes. -/
theorem IsSpelled.eq_of_outlineLexemes {first second : Form}
    (spelled : first.IsSpelled) (otherSpelled : second.IsSpelled)
    {rest otherRest : List Lexeme}
    (same : first.outlineLexemes ++ rest =
      second.outlineLexemes ++ otherRest) :
    first = second ∧ rest = otherRest := by
  obtain ⟨lexeme, following, lexemesEq, isFirst⟩ := spelled.exists_first
  obtain ⟨otherLexeme, others, otherEq, otherFirst⟩ :=
    otherSpelled.exists_first
  have heads : lexeme = otherLexeme := by
    rw [lexemesEq, otherEq] at same
    exact (List.cons.inj same).1
  have formsEq : first = second := by
    rw [heads, otherFirst] at isFirst
    exact (Option.some.inj isFirst).symm
  subst formsEq
  exact ⟨rfl, List.append_cancel_left same⟩

theorem spacedLexemes_cons_append_ne {rest : List Lexeme}
    (ends : rest.head? ≠ some (.sign ' ')) (form : Form) (forms : List Form)
    (otherRest : List Lexeme) :
    spacedLexemes (form :: forms) ++ otherRest ≠ rest := by
  rintro rfl
  exact ends rfl

/-- Forms can be read off the lexemes of their outlines, up to where no space
follows. -/
theorem Spelled.eq_of_spacedLexemes {first second : List Form}
    (spelled : Spelled first) (otherSpelled : Spelled second)
    {rest otherRest : List Lexeme} (ends : rest.head? ≠ some (.sign ' '))
    (otherEnds : otherRest.head? ≠ some (.sign ' '))
    (same : spacedLexemes first ++ rest = spacedLexemes second ++ otherRest) :
    first = second ∧ rest = otherRest := by
  induction spelled generalizing second rest otherRest with
  | nil =>
      cases second with
      | nil => exact ⟨rfl, same⟩
      | cons form forms =>
          exact absurd same.symm (spacedLexemes_cons_append_ne ends _ _ _)
  | @leaf form forms spelled tail induction =>
      cases otherSpelled with
      | nil => exact absurd same (spacedLexemes_cons_append_ne otherEnds _ _ _)
      | leaf otherSpelled otherTail =>
          simp only [spacedLexemes, List.cons_append, List.append_assoc] at same
          obtain ⟨rfl, rests⟩ :=
            spelled.eq_of_outlineLexemes otherSpelled (List.cons.inj same).2
          obtain ⟨rfl, restEq⟩ := induction otherTail ends otherEnds rests
          exact ⟨rfl, restEq⟩
      | call named inner otherTail =>
          simp only [spacedLexemes, List.cons_append, List.append_assoc] at same
          exact absurd (List.cons.inj same).2
            (spelled.outlineLexemes_ne_call _ _ _ _)
  | @call callee arguments forms named inner tail innerInduction induction =>
      cases otherSpelled with
      | nil => exact absurd same (spacedLexemes_cons_append_ne otherEnds _ _ _)
      | leaf otherSpelled otherTail =>
          simp only [spacedLexemes, List.cons_append, List.append_assoc] at same
          exact absurd (List.cons.inj same).2.symm
            (otherSpelled.outlineLexemes_ne_call _ _ _ _)
      | call otherNamed otherInner otherTail =>
          simp only [spacedLexemes, outlineLexemes, List.cons_append,
            List.append_assoc, List.nil_append, List.cons.injEq,
            Lexeme.word.injEq, String.toList_inj, true_and] at same
          obtain ⟨rfl, inside⟩ := same
          -- The arguments end where the parenthesis stands in the place of a
          -- space.
          obtain ⟨rfl, closed⟩ :=
            innerInduction otherInner (by simp) (by simp) inside
          obtain ⟨rfl, restEq⟩ :=
            induction otherTail ends otherEnds (List.cons.inj closed).2
          exact ⟨rfl, restEq⟩

theorem spacedLexemes_eq_of_tail_eq {first second : List Form}
    (spelled : Spelled first) (otherSpelled : Spelled second)
    (same : (spacedLexemes first).tail = (spacedLexemes second).tail) :
    spacedLexemes first = spacedLexemes second := by
  have nonempty : ∀ {form : Form} {forms : List Form},
      Spelled (form :: forms) →
        (spacedLexemes (form :: forms)).tail ≠ [] := by
    intro form forms spelled
    cases spelled with
    | leaf spelled tail =>
        obtain ⟨lexeme, following, lexemesEq, -⟩ := spelled.exists_first
        simp [spacedLexemes, lexemesEq]
    | call named inner tail => simp [spacedLexemes, outlineLexemes]
  cases first with
  | nil =>
      cases second with
      | nil => rfl
      | cons form forms => exact absurd same.symm (nonempty otherSpelled)
  | cons form forms =>
      cases second with
      | nil => exact absurd same (nonempty spelled)
      | cons other others => exact congrArg (.sign ' ' :: ·) same

/-- The outline of a program with texts of their kinds tells the program. -/
theorem injOn_formsOutline :
    Set.InjOn formsOutline { forms | Spelled forms } := by
  intro first spelled second otherSpelled same
  have lexed := spelled.lexemes_formsOutline
  rw [same, otherSpelled.lexemes_formsOutline] at lexed
  have whole := spacedLexemes_eq_of_tail_eq spelled otherSpelled lexed.symm
  have ends : ([] : List Lexeme).head? ≠ some (.sign ' ') := by simp
  exact (spelled.eq_of_spacedLexemes otherSpelled ends ends
    (by rw [whole])).1

end Decoding

section Sources

theorem isSpelled_of_isTrivia {form : Form} (isTrivia : form.isTrivia) :
    form.IsSpelled := by
  cases form with
  | blank | newline => trivial
  | _ => simp [Form.isTrivia] at isTrivia

theorem isSpelled_of_isLiteral {form : Form} (isLiteral : form.isLiteral)
    (spelled : ∀ token ∈ form.unread, token.HasSpelling) : form.IsSpelled := by
  cases form with
  | number digits => exact spelled (.number digits) (by simp [unread])
  | string content => exact spelled (.string content) (by simp [unread])
  | _ => simp [Form.isLiteral] at isLiteral

theorem spelled_layout_append {layout forms : List Form}
    (layoutTrivia : ∀ form ∈ layout, form.isTrivia) (tail : Spelled forms) :
    Spelled (layout ++ forms) := by
  induction layout with
  | nil => exact tail
  | cons form layout induction =>
      exact .leaf (isSpelled_of_isTrivia (layoutTrivia form (by simp)))
        (induction fun other member => layoutTrivia other (by simp [member]))

theorem spelled_target {name : String}
    (named : (Token.identifier name).HasSpelling) {forms : List Form}
    (tail : Spelled forms) :
    Spelled (.name name :: .blank :: .equals :: forms) :=
  .leaf named (.leaf trivial (.leaf trivial tail))

/-- Well-formed forms have texts of their kinds if their tokens have. -/
theorem WellFormed.spelled {place : Place} {forms : List Form}
    (wellFormed : WellFormed place forms)
    (tokensSpelled : ∀ token ∈ unreadAll forms, token.HasSpelling) :
    Spelled forms := by
  induction wellFormed with
  | nil => exact .nil
  | trivia isTrivia tail induction =>
      rw [unreadAll_trivia isTrivia] at tokensSpelled
      exact .leaf (isSpelled_of_isTrivia isTrivia)
        (induction fun token member => tokensSpelled token (by simp [member]))
  | literal isLiteral tail induction =>
      rw [unreadAll_literal isLiteral] at tokensSpelled
      refine .leaf (isSpelled_of_isLiteral isLiteral ?_)
        (induction fun token member => tokensSpelled token (by simp [member]))
      intro token member
      exact tokensSpelled token (by simp [member])
  | equals tail induction =>
      rw [unreadAll_equals] at tokensSpelled
      exact .leaf trivial
        (induction fun token member => tokensSpelled token (by simp [member]))
  | @call _ callee _ _ inner tail innerInduction induction =>
      rw [unreadAll_call] at tokensSpelled
      exact .call (tokensSpelled (.identifier callee) (by simp))
        (innerInduction fun token member =>
          tokensSpelled token (by simp [member]))
        (induction fun token member => tokensSpelled token (by simp [member]))
  | @target _ name _ next tail induction =>
      rw [unreadAll_target] at tokensSpelled
      exact spelled_target (tokensSpelled (.identifier name) (by simp))
        (induction fun token member => tokensSpelled token (by simp [member]))
  | argumentVar tail induction =>
      rw [unreadAll_var] at tokensSpelled
      exact .leaf trivial
        (induction fun token member => tokensSpelled token (by simp [member]))
  | @declaration name literal layout spacing forms layoutTrivia spacingTrivia
      isLiteral tail induction =>
      rw [unreadAll_declaration layoutTrivia spacingTrivia isLiteral]
        at tokensSpelled
      have rest := induction fun token member =>
        tokensSpelled token (by simp [member])
      have value : literal.IsSpelled :=
        isSpelled_of_isLiteral isLiteral fun token member =>
          tokensSpelled token (by simp [member])
      have closed : Spelled (literal :: .semicolon :: forms) :=
        .leaf value (.leaf trivial rest)
      have target := spelled_target
        (tokensSpelled (.identifier name) (by simp))
        (spelled_layout_append spacingTrivia closed)
      exact .leaf trivial (spelled_layout_append layoutTrivia target)

end Sources

end Form

open Form

theorem exists_readForms_of_render_ist {options : Options}
    {source outline : String}
    (renders : render options .ist source = .ok outline) :
    ∃ tokens forms, scan source = .ok tokens ∧ readForms tokens = .ok forms ∧
      formsOutline forms = outline := by
  cases reads : sourceForms source with
  | error error =>
      simp only [render, reads] at renders
      cases renders
  | ok forms =>
      simp only [render, reads] at renders
      cases renders
      obtain ⟨tokens, scans, accepts⟩ := sourceForms_eq_ok_iff.mp reads
      exact ⟨tokens, forms, scans, accepts, rfl⟩

/-- The outline of a source text tells its tokens, and with them its forms and
its output, whether keywords are kept or not. -/
theorem scan_eq_of_outline_eq {options otherOptions : Options}
    {first second outline : String}
    (renders : render options .ist first = .ok outline)
    (otherRenders : render otherOptions .ist second = .ok outline) :
    scan first = scan second ∧ sourceForms first = sourceForms second ∧
      ∀ anyOptions, compile anyOptions first = compile anyOptions second := by
  obtain ⟨tokens, forms, scans, accepts, rfl⟩ :=
    exists_readForms_of_render_ist renders
  obtain ⟨otherTokens, others, otherScans, otherAccepts, same⟩ :=
    exists_readForms_of_render_ist otherRenders
  obtain ⟨wellFormed, rfl⟩ := wellFormed_of_readForms accepts
  obtain ⟨otherWellFormed, rfl⟩ := wellFormed_of_readForms otherAccepts
  have spelled := wellFormed.spelled (canonical_of_scan scans).spelled
  have otherSpelled :=
    otherWellFormed.spelled (canonical_of_scan otherScans).spelled
  have formsEq : forms = others :=
    injOn_formsOutline spelled otherSpelled same.symm
  have scansEq : scan first = scan second := by
    rw [scans, otherScans, formsEq]
  have readsEq : sourceForms first = sourceForms second := by
    rw [sourceForms, sourceForms, sourceTokens, sourceTokens, scansEq]
  refine ⟨scansEq, readsEq, ?_⟩
  intro anyOptions
  simp only [compile, render, readsEq]

theorem scan_eq_of_outline_eq_blanks :
    render ⟨false⟩ .ist "(f\t\"_ 1)\\n\" var\ta 2)" =
        .ok "(f _ \"_ 1)\\n\" _ var _ a _ = _ 2)" ∧
      render ⟨true⟩ .ist "(f \"_ 1)\\n\" var a 2)" =
        .ok "(f _ \"_ 1)\\n\" _ var _ a _ = _ 2)" ∧
      scan "(f\t\"_ 1)\\n\" var\ta 2)" = scan "(f \"_ 1)\\n\" var a 2)" ∧
      sourceForms "(f\t\"_ 1)\\n\" var\ta 2)" =
        sourceForms "(f \"_ 1)\\n\" var a 2)" ∧
      ∀ anyOptions,
        compile anyOptions "(f\t\"_ 1)\\n\" var\ta 2)" =
          compile anyOptions "(f \"_ 1)\\n\" var a 2)" := by
  have renders : render ⟨false⟩ .ist "(f\t\"_ 1)\\n\" var\ta 2)" =
      .ok "(f _ \"_ 1)\\n\" _ var _ a _ = _ 2)" := by cbv
  have otherRenders : render ⟨true⟩ .ist "(f \"_ 1)\\n\" var a 2)" =
      .ok "(f _ \"_ 1)\\n\" _ var _ a _ = _ 2)" := by cbv
  exact ⟨renders, otherRenders, scan_eq_of_outline_eq renders otherRenders⟩

end ParenCall
