import ParenCall.Proofs.ConcatenatedSources
import ParenCall.Proofs.LegiblePhrases

/-!
# Lowering to legible phrases

The phrases of a program that comes from a text are legible.  Its tokens are
canonical, so every name, number and string is one lexeme.  Two numbers are
never neighbours among the tokens; lowering drops nothing but blanks and
keywords, and the name of a declaration stands between its keyword and its
number, so two numbers are never neighbours at the top level of the output
either.  A word is never followed by a word: a target has its equals sign, a
call its parenthesis, and a keyword that is kept the layout before its name.
-/

namespace ParenCall

namespace Form

/-- Whether a form is dropped together with a keyword before it. -/
def goesWithVar : Form → Bool
  | .blank | .var => true
  | _ => false

theorem lowerAll_trivia {form : Form} (isTrivia : form.isTrivia)
    (options : Options) (forms : List Form) :
    lowerAll options .topLevel false (form :: forms) =
      lower options .topLevel form :: lowerAll options .topLevel false forms := by
  cases form with
  | blank | newline => simp [lowerAll, lower]
  | _ => simp [Form.isTrivia] at isTrivia

theorem lowerAll_literal {form : Form} (isLiteral : form.isLiteral)
    (options : Options) (place : Place) (forms : List Form) :
    lowerAll options place false (form :: forms) =
      lower options place form :: lowerAll options place false forms := by
  cases form with
  | number | string => simp [lowerAll]
  | _ => simp [Form.isLiteral] at isLiteral

theorem lowerAll_layout_append {layout : List Form}
    (layoutTrivia : ∀ form ∈ layout, form.isTrivia) (options : Options)
    (forms : List Form) :
    lowerAll options .topLevel false (layout ++ forms) =
      layout.map (lower options .topLevel) ++
        lowerAll options .topLevel false forms := by
  induction layout with
  | nil => rfl
  | cons form layout induction =>
      rw [List.cons_append, lowerAll_trivia (layoutTrivia form (by simp)),
        induction fun other member => layoutTrivia other (by simp [member])]
      rfl

/-- A dropped keyword takes along the blanks and keywords right after it. -/
theorem lowerAll_afterVar {options : Options} (drops : options.keepVar = false)
    (place : Place) (forms : List Form) :
    lowerAll options place true forms =
      lowerAll options place false (forms.dropWhile goesWithVar) := by
  induction forms with
  | nil => simp [lowerAll]
  | cons form forms induction =>
      cases form <;>
        simp [lowerAll, goesWithVar, drops, induction, List.dropWhile_cons]

/-- The layout of a declaration that is left before its name. -/
def keptLayout (options : Options) (layout : List Form) : List Form :=
  if options.keepVar then layout else layout.dropWhile goesWithVar

/-- The keyword of a declaration, if it is kept. -/
def keptKeyword (options : Options) : List Phrase :=
  if options.keepVar then [.var] else []

theorem mem_of_mem_keptLayout (options : Options) {layout : List Form}
    {form : Form} (member : form ∈ keptLayout options layout) :
    form ∈ layout := by
  unfold keptLayout at member
  split at member
  · exact member
  · exact (List.dropWhile_sublist _).mem member

/-- A declaration is lowered piece by piece. -/
theorem lowerAll_declaration {layout spacing : List Form} {literal : Form}
    (layoutTrivia : ∀ form ∈ layout, form.isTrivia)
    (spacingTrivia : ∀ form ∈ spacing, form.isTrivia)
    (isLiteral : literal.isLiteral) (options : Options) (name : String)
    (forms : List Form) :
    lowerAll options .topLevel false
        (.var :: (layout ++ .name name :: .blank :: .equals ::
          (spacing ++ literal :: .semicolon :: forms))) =
      keptKeyword options ++
        ((keptLayout options layout).map (lower options .topLevel) ++
          .name name :: .blank :: .equals ::
            (spacing.map (lower options .topLevel) ++
              lower options .topLevel literal :: .semicolon ::
                lowerAll options .topLevel false forms)) := by
  have named (others : List Form) :
      lowerAll options .topLevel false
          (.name name :: .blank :: .equals :: others) =
        .name name :: .blank :: .equals ::
          lowerAll options .topLevel false others := by
    simp [lowerAll, lower]
  have closed : lowerAll options .topLevel false (.semicolon :: forms) =
      .semicolon :: lowerAll options .topLevel false forms := by
    simp [lowerAll, lower]
  have keptTrivia : ∀ form ∈ keptLayout options layout, form.isTrivia :=
    fun form member => layoutTrivia form (mem_of_mem_keptLayout options member)
  rw [← closed, ← lowerAll_literal isLiteral,
    ← lowerAll_layout_append spacingTrivia, ← named,
    ← lowerAll_layout_append keptTrivia]
  cases keeps : options.keepVar with
  | true => simp [lowerAll, keptKeyword, keptLayout, keeps]
  | false =>
      simp only [lowerAll, keeps, keptKeyword, keptLayout, Bool.false_eq_true,
        if_false, List.nil_append]
      rw [lowerAll_afterVar keeps, List.dropWhile_append]
      split
      · rename_i empty
        simp [goesWithVar, List.isEmpty_iff.mp empty]
      · rfl

end Form

namespace Phrase

theorem Legible.plain {place : Place} {phrase : Phrase} {phrases : List Phrase}
    (spelled : phrase.IsSpelled)
    (neither : ∀ lexeme ∈ phrase.lexemes,
      lexeme.isWord = false ∧ lexeme.isNumber = false)
    (tail : Legible place phrases) : Legible place (phrase :: phrases) := by
  refine .leaf spelled ?_ tail
  intro _ lexeme member next _
  simp [Lexeme.Apart, neither lexeme member]

/-- A phrase before a blank cannot go on. -/
theorem Legible.beforeSign {place : Place} {phrase sign : Phrase}
    {phrases : List Phrase} (spelled : phrase.IsSpelled) {character : Char}
    (isSign : sign.lexemes = [.sign character])
    (tail : Legible place (sign :: phrases)) :
    Legible place (phrase :: sign :: phrases) := by
  refine .leaf spelled ?_ tail
  rintro rfl lexeme _ next isHead
  rw [lexemesIn, isSign] at isHead
  cases isHead
  simp [Lexeme.Apart, Lexeme.isWord, Lexeme.isNumber]

theorem Legible.argument {phrase : Phrase} {phrases : List Phrase}
    (spelled : phrase.IsSpelled) (tail : Legible .arguments phrases) :
    Legible .arguments (phrase :: phrases) := by
  refine .leaf spelled ?_ tail
  intro outside
  cases outside

theorem Legible.number {digits : String} {phrases : List Phrase}
    (spelled : (Token.number digits).HasSpelling)
    (noNumber : ∀ others rest, phrases ≠ .number others :: rest)
    (tail : Legible .topLevel phrases) :
    Legible .topLevel (.number digits :: phrases) := by
  refine .leaf spelled ?_ tail
  intro _ lexeme member next isHead
  cases phrases with
  | nil => cases isHead
  | cons phrase phrases =>
      have notNumber : next.isNumber = false := by
        cases phrase with
        | number others => exact absurd rfl (noNumber others phrases)
        | _ =>
            cases isHead
            rfl
      rw [lexemes, List.mem_singleton] at member
      simp [member, Lexeme.Apart, Lexeme.isWord, notNumber]

end Phrase

open Form Phrase

variable (options : Options)

theorem isSpelled_lower_literal {form : Form} (isLiteral : form.isLiteral)
    (spelled : ∀ token ∈ form.unread, token.HasSpelling) (place : Place) :
    (lower options place form).IsSpelled := by
  cases form with
  | number digits => exact spelled (.number digits) (by simp [unread])
  | string content => exact spelled (.string content) (by simp [unread])
  | _ => simp [Form.isLiteral] at isLiteral

/-- The arguments of a call are lowered to legible phrases. -/
theorem legible_lowerAll_arguments {place : Place} {forms : List Form}
    (wellFormed : WellFormed place forms) (inCall : place = .arguments)
    (spelled : ∀ token ∈ unreadAll forms, token.HasSpelling) :
    Legible .arguments (lowerAll options .arguments false forms) := by
  induction wellFormed with
  | nil => exact .nil
  | @trivia _ form forms isTrivia tail induction =>
      rw [unreadAll_trivia isTrivia] at spelled
      have rest := induction inCall fun token member =>
        spelled token (by simp [member])
      cases form with
      | blank => simpa [lowerAll] using rest
      | newline =>
          have lowers : lowerAll options .arguments false (.newline :: forms) =
              .newline :: lowerAll options .arguments false forms := by
            simp [lowerAll, lower]
          rw [lowers]
          exact rest.argument trivial
      | _ => simp [Form.isTrivia] at isTrivia
  | @literal _ form forms isLiteral tail induction =>
      rw [unreadAll_literal isLiteral] at spelled
      have rest := induction inCall fun token member =>
        spelled token (by simp [member])
      rw [lowerAll_literal isLiteral]
      refine rest.argument
        (isSpelled_lower_literal options isLiteral ?_ .arguments)
      intro token member
      exact spelled token (by simp [member])
  | equals tail induction =>
      rw [unreadAll_equals] at spelled
      exact (spelled .equal (by simp)).elim
  | @call _ callee arguments forms inner tail innerInduction induction =>
      rw [unreadAll_call] at spelled
      have inside := innerInduction rfl fun token member =>
        spelled token (by simp [member])
      have rest := induction inCall fun token member =>
        spelled token (by simp [member])
      have named := spelled (.identifier callee) (by simp)
      simpa [lowerAll, lower] using Legible.call named inside rest
  | @target _ name forms next tail induction =>
      rw [unreadAll_target] at spelled
      have rest := induction inCall fun token member =>
        spelled token (by simp [member])
      have named := spelled (.identifier name) (by simp)
      have lowers : lowerAll options .arguments false
          (.name name :: .blank :: .equals :: forms) =
            .name name :: .equals :: lowerAll options .arguments false forms := by
        simp [lowerAll, lower]
      have assigned : Legible .arguments
          (.equals :: lowerAll options .arguments false forms) :=
        rest.argument trivial
      rw [lowers]
      exact assigned.argument named
  | @argumentVar forms tail induction =>
      rw [unreadAll_var] at spelled
      have rest := induction inCall fun token member =>
        spelled token (by simp [member])
      cases keeps : options.keepVar with
      | true =>
          have lowers : lowerAll options .arguments false (.var :: forms) =
              .var :: lowerAll options .arguments false forms := by
            simp [lowerAll, keeps]
          rw [lowers]
          exact rest.argument trivial
      | false =>
          simpa [lowerAll, keeps, lowerAll_arguments_afterVar] using rest
  | declaration => cases inCall

theorem legible_layout_append {layout : List Form}
    (layoutTrivia : ∀ form ∈ layout, form.isTrivia) {phrases : List Phrase}
    (tail : Legible .topLevel phrases) :
    Legible .topLevel (layout.map (lower options .topLevel) ++ phrases) := by
  induction layout with
  | nil => exact tail
  | cons form layout induction =>
      have rest := induction fun other member =>
        layoutTrivia other (by simp [member])
      have isTrivia : form.isTrivia := layoutTrivia form (by simp)
      cases form with
      | blank | newline =>
          refine Legible.plain trivial ?_ rest
          intro lexeme member
          simp only [lower, Phrase.lexemes, List.mem_singleton] at member
          simp [member, Lexeme.isWord, Lexeme.isNumber]
      | _ => simp [Form.isTrivia] at isTrivia

/-- A number that begins the output begins the tokens. -/
theorem number_head_of_lowerAll {forms : List Form}
    (wellFormed : WellFormed .topLevel forms) {digits : String}
    {rest : List Phrase}
    (lowers : lowerAll options .topLevel false forms = .number digits :: rest) :
    ∃ tokens, unreadAll forms = .number digits :: tokens := by
  cases wellFormed with
  | nil => simp [lowerAll] at lowers
  | @trivia _ form forms isTrivia tail =>
      rw [lowerAll_trivia isTrivia] at lowers
      cases form with
      | blank | newline => simp [lower] at lowers
      | _ => simp [Form.isTrivia] at isTrivia
  | @literal _ form forms isLiteral tail =>
      rw [lowerAll_literal isLiteral] at lowers
      cases form with
      | number =>
          simp only [lower, List.cons.injEq, Phrase.number.injEq] at lowers
          rw [unreadAll_literal isLiteral, lowers.1]
          exact ⟨_, rfl⟩
      | string => simp [lower] at lowers
      | _ => simp [Form.isLiteral] at isLiteral
  | equals tail => simp [lowerAll, lower] at lowers
  | call inner tail => simp [lowerAll, lower, Place.call] at lowers
  | target next tail => simp [lowerAll, lower] at lowers
  | @declaration name literal layout spacing forms layoutTrivia spacingTrivia
      isLiteral tail =>
      rw [lowerAll_declaration layoutTrivia spacingTrivia isLiteral] at lowers
      unfold keptKeyword at lowers
      split at lowers
      · simp at lowers
      · cases kept : keptLayout options layout with
        | nil => simp [kept] at lowers
        | cons form others =>
            have member : form ∈ layout :=
              mem_of_mem_keptLayout options (by simp [kept])
            have isTrivia := layoutTrivia form member
            cases form with
            | blank | newline => simp [kept, lower] at lowers
            | _ => simp [Form.isTrivia] at isTrivia

theorem legible_literal_semicolon {form : Form} (isLiteral : form.isLiteral)
    (spelled : ∀ token ∈ form.unread, token.HasSpelling)
    {phrases : List Phrase} (tail : Legible .topLevel phrases) :
    Legible .topLevel
      (lower options .topLevel form :: .semicolon :: phrases) := by
  have closed : Legible .topLevel (.semicolon :: phrases) := by
    refine Legible.plain trivial ?_ tail
    simp [Phrase.lexemes, Lexeme.isWord, Lexeme.isNumber]
  exact Legible.beforeSign
    (isSpelled_lower_literal options isLiteral spelled .topLevel) rfl closed

theorem legible_target {name : String}
    (named : (Token.identifier name).HasSpelling) {phrases : List Phrase}
    (tail : Legible .topLevel phrases) :
    Legible .topLevel (.name name :: .blank :: .equals :: phrases) := by
  have assigned : Legible .topLevel (.equals :: phrases) := by
    refine Legible.plain trivial ?_ tail
    simp [Phrase.lexemes, Lexeme.isWord, Lexeme.isNumber]
  have spaced : Legible .topLevel (.blank :: .equals :: phrases) :=
    Legible.beforeSign trivial rfl assigned
  exact Legible.beforeSign named rfl spaced

/-- A keyword that is kept has layout after it, because a name right after it
would be one word with it. -/
theorem legible_keyword {layout : List Form} {name : String}
    {tokens : List Token}
    (layoutTrivia : ∀ form ∈ layout, form.isTrivia)
    (canonical : Canonical
      (.var :: (unreadAll layout ++ .identifier name :: tokens)))
    {phrases : List Phrase}
    (tail : Legible .topLevel
      ((keptLayout options layout).map (lower options .topLevel) ++
        .name name :: phrases)) :
    Legible .topLevel
      (keptKeyword options ++
        ((keptLayout options layout).map (lower options .topLevel) ++
          .name name :: phrases)) := by
  cases keeps : options.keepVar with
  | false => simpa [keptKeyword, keeps] using tail
  | true =>
      have kept : keptLayout options layout = layout := by
        simp [keptLayout, keeps]
      have keyword : keptKeyword options = [.var] := by
        simp [keptKeyword, keeps]
      rw [kept] at tail ⊢
      rw [keyword]
      cases layout with
      | nil =>
          have apart := (List.isChain_cons.mp canonical.apart).1
            (.identifier name) (by simp [unreadAll])
          exact absurd ⟨rfl, rfl⟩ apart.1
      | cons form layout =>
          have isTrivia := layoutTrivia form (by simp)
          cases form with
          | blank | newline => exact Legible.beforeSign trivial rfl tail
          | _ => simp [Form.isTrivia] at isTrivia

theorem Canonical.tail {token : Token} {tokens : List Token}
    (canonical : Canonical (token :: tokens)) : Canonical tokens where
  spelled := fun other member => canonical.spelled other (by simp [member])
  apart := (List.isChain_cons.mp canonical.apart).2

theorem Canonical.of_append {first second : List Token}
    (canonical : Canonical (first ++ second)) : Canonical second where
  spelled := fun other member => canonical.spelled other (by simp [member])
  apart := canonical.apart.right_of_append

/-- A program with canonical tokens is lowered to legible phrases. -/
theorem legible_lowerAll {place : Place} {forms : List Form}
    (wellFormed : WellFormed place forms) (outside : place = .topLevel)
    (canonical : Canonical (unreadAll forms)) :
    Legible .topLevel (lowerAll options .topLevel false forms) := by
  induction wellFormed with
  | nil => exact .nil
  | @trivia _ form forms isTrivia tail induction =>
      rw [unreadAll_trivia isTrivia] at canonical
      have rest := induction outside canonical.of_append
      have layoutTrivia : ∀ other ∈ [form], other.isTrivia := by
        simpa using isTrivia
      rw [lowerAll_trivia isTrivia]
      exact legible_layout_append options layoutTrivia rest
  | @literal _ form forms isLiteral tail induction =>
      rw [unreadAll_literal isLiteral] at canonical
      have rest := induction outside canonical.of_append
      rw [lowerAll_literal isLiteral]
      cases form with
      | number digits =>
          refine Legible.number (canonical.spelled _ (by simp [unread])) ?_ rest
          intro others following lowers
          subst outside
          obtain ⟨tokens, tokensEq⟩ := number_head_of_lowerAll options tail lowers
          rw [tokensEq] at canonical
          have apart := (List.isChain_cons.mp canonical.apart).1
            (.number others) (by simp)
          exact absurd ⟨rfl, rfl⟩ apart.2
      | string content =>
          have spelled := canonical.spelled (.string content) (by simp [unread])
          refine Legible.plain spelled ?_ rest
          simp [lower, Phrase.lexemes, Lexeme.isWord, Lexeme.isNumber]
      | _ => simp [Form.isLiteral] at isLiteral
  | equals tail induction =>
      rw [unreadAll_equals] at canonical
      exact (canonical.spelled .equal (by simp)).elim
  | @call _ callee arguments forms inner tail innerInduction induction =>
      rw [unreadAll_call] at canonical
      have named := canonical.spelled (.identifier callee) (by simp)
      have inside := legible_lowerAll_arguments options inner rfl
        fun token member => canonical.spelled token (by simp [member])
      have rest := induction outside canonical.tail.tail.of_append.tail
      simpa [lowerAll, lower] using Legible.call named inside rest
  | @target _ name forms next tail induction =>
      rw [unreadAll_target] at canonical
      have named := canonical.spelled (.identifier name) (by simp)
      have rest := induction outside canonical.tail
      have lowers : lowerAll options .topLevel false
          (.name name :: .blank :: .equals :: forms) =
            .name name :: .blank :: .equals ::
              lowerAll options .topLevel false forms := by
        simp [lowerAll, lower]
      rw [lowers]
      exact legible_target named rest
  | argumentVar => cases outside
  | @declaration name literal layout spacing forms layoutTrivia spacingTrivia
      isLiteral tail induction =>
      rw [unreadAll_declaration layoutTrivia spacingTrivia isLiteral]
        at canonical
      have named := canonical.spelled (.identifier name) (by simp)
      have spelled : ∀ token ∈ literal.unread, token.HasSpelling :=
        fun token member => canonical.spelled token (by simp [member])
      have rest := induction outside
        canonical.tail.of_append.tail.of_append.of_append
      have keptTrivia : ∀ form ∈ keptLayout options layout, form.isTrivia :=
        fun form member => layoutTrivia form (mem_of_mem_keptLayout options member)
      have value := legible_literal_semicolon options isLiteral spelled rest
      have target := legible_target named
        (legible_layout_append options spacingTrivia value)
      rw [lowerAll_declaration layoutTrivia spacingTrivia isLiteral]
      exact legible_keyword options layoutTrivia canonical
        (legible_layout_append options keptTrivia target)

section Sources

variable {source output : String} {forms : List Form}

theorem sourceForms_eq_ok_iff :
    sourceForms source = .ok forms ↔
      ∃ tokens, scan source = .ok tokens ∧ readForms tokens = .ok forms := by
  unfold sourceForms sourceTokens
  cases scan source with
  | error error => simp [Except.mapError]
  | ok tokens =>
      cases accepts : readForms tokens <;> simp [accepts, Except.mapError]

/-- The phrases of a source text can be read off their text. -/
theorem legible_lowerForms (reads : sourceForms source = .ok forms) :
    Legible .topLevel (lowerForms options forms) := by
  obtain ⟨tokens, scans, accepts⟩ := sourceForms_eq_ok_iff.mp reads
  obtain ⟨wellFormed, rfl⟩ := wellFormed_of_readForms accepts
  exact legible_lowerAll options wellFormed rfl (canonical_of_scan scans)

variable {options}

theorem exists_sourceForms_of_compile
    (compiles : compile options source = .ok output) :
    ∃ forms, sourceForms source = .ok forms ∧
      output = phrasesText (lowerForms options forms) := by
  obtain ⟨tokens, forms, scans, accepts, written⟩ :=
    exists_readForms_of_compile compiles
  have reads := sourceForms_eq_ok_iff.mpr ⟨tokens, scans, accepts⟩
  exact ⟨forms, reads, written⟩

end Sources

end ParenCall
