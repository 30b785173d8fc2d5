import ParenCall.Proofs.CanonicalTokens
import ParenCall.Proofs.OnePassTranslation

/-!
# Legible phrases

The text of an output program has no separators at the top level, and a string
in it may hold any sign that the output uses elsewhere.  Still the phrases can
be read off their text.  Cut into lexemes, the text begins a call with a name
and a parenthesis, divides the arguments of a call by commas, and writes every
other phrase as one lexeme.

This needs that each name, number and string is the single lexeme it should
be, that the name of no phrase is the keyword, and that no two words and no two
numbers follow each other at the top level.  Phrases of this kind are legible:
two legible programs with the same text are the same program.
-/

namespace ParenCall

/-- What divides a phrase from those written before it in the same place. -/
def Place.separator : Place → Bool → List Lexeme
  | .arguments, true => [.sign ',', .sign ' ']
  | _, _ => []

/-- The end of a call that stands in a place. -/
def Place.closing : Place → List Lexeme
  | .topLevel => [.sign ')', .sign ';']
  | .arguments => [.sign ')']

/-- What can follow the phrases of a place. -/
def Place.Ends : Place → List Lexeme → Prop
  | .topLevel, rest => rest = []
  | .arguments, rest => ∃ following, rest = .sign ')' :: following

namespace Phrase

mutual

/-- The lexemes of one phrase. -/
def lexemes : Phrase → List Lexeme
  | .statement callee arguments =>
      .word callee.toList :: .sign '(' ::
        (lexemesIn .arguments false arguments ++ Place.closing .topLevel)
  | .call callee arguments =>
      .word callee.toList :: .sign '(' ::
        (lexemesIn .arguments false arguments ++ Place.closing .arguments)
  | .name identifier => [.word identifier.toList]
  | .number digits => [.number digits.toList]
  | .string content => [.string content.toList]
  | .blank => [.sign ' ']
  | .newline => [.sign '\n']
  | .var => [.word "var".toList]
  | .equals => [.sign '=']
  | .semicolon => [.sign ';']

/-- The lexemes of neighbouring phrases.  `written` holds when others stand
before them. -/
def lexemesIn (place : Place) (written : Bool) : List Phrase → List Lexeme
  | [] => []
  | phrase :: phrases =>
      place.separator written ++
        (lexemes phrase ++ lexemesIn place true phrases)

end

theorem lexemes_placeCall (place : Place) (callee : String)
    (arguments : List Phrase) :
    (place.call callee arguments).lexemes =
      .word callee.toList :: .sign '(' ::
        (lexemesIn .arguments false arguments ++ place.closing) := by
  cases place <;> rfl

theorem toList_separator (written : Bool) :
    (if written then ", " else "").toList =
      (Place.separator .arguments written).flatMap Lexeme.characters := by
  cases written <;> rfl

mutual

theorem toList_text (phrase : Phrase) :
    phrase.text.toList = phrase.lexemes.flatMap Lexeme.characters := by
  cases phrase with
  | statement callee arguments | call callee arguments =>
      have inner := toList_argumentsText false arguments
      rw [argumentsText_false] at inner
      simp [text, callText, lexemes, inner, Place.closing, Lexeme.characters]
  | _ => simp [text, lexemes, Lexeme.characters]

theorem toList_argumentsText (written : Bool) (phrases : List Phrase) :
    (argumentsText written (texts phrases)).toList =
      (lexemesIn .arguments written phrases).flatMap Lexeme.characters := by
  cases phrases with
  | nil => simp [texts, argumentsText, lexemesIn]
  | cons phrase phrases =>
      have first := toList_text phrase
      have rest := toList_argumentsText true phrases
      have divides := toList_separator written
      simp only [texts, argumentsText, lexemesIn, String.toList_append,
        List.flatMap_append, first, rest, divides, List.append_assoc]

end

/-- The text of an output program is spelled by its lexemes. -/
theorem toList_phrasesText (written : Bool) (phrases : List Phrase) :
    (phrasesText phrases).toList =
      (lexemesIn .topLevel written phrases).flatMap Lexeme.characters := by
  induction phrases generalizing written with
  | nil => simp [lexemesIn]
  | cons phrase phrases induction =>
      rw [phrasesText_cons, String.toList_append, induction true, toList_text]
      simp [lexemesIn, Place.separator]

/-- Whether a phrase is written as one lexeme that shows which phrase it is. -/
def IsSpelled : Phrase → Prop
  | .statement _ _ | .call _ _ => False
  | .name identifier => (Token.identifier identifier).HasSpelling
  | .number digits => (Token.number digits).HasSpelling
  | .string content => (Token.string content).HasSpelling
  | .blank | .newline | .var | .equals | .semicolon => True

/-- The phrases of a place that can be read off their text. -/
inductive Legible : Place → List Phrase → Prop
  | nil {place : Place} : Legible place []
  | leaf {place : Place} {phrase : Phrase} {phrases : List Phrase}
      (spelled : phrase.IsSpelled)
      (apart : place = .topLevel → ∀ lexeme ∈ phrase.lexemes,
        ∀ next ∈ (lexemesIn place true phrases).head?, lexeme.Apart next)
      (tail : Legible place phrases) : Legible place (phrase :: phrases)
  | call {place : Place} {callee : String} {arguments phrases : List Phrase}
      (named : (Token.identifier callee).HasSpelling)
      (inner : Legible .arguments arguments) (tail : Legible place phrases) :
      Legible place (place.call callee arguments :: phrases)

/-- The lexeme of a phrase that is no call. -/
theorem IsSpelled.exists_lexeme {phrase : Phrase} (spelled : phrase.IsSpelled) :
    ∃ lexeme : Lexeme, phrase.lexemes = [lexeme] ∧ lexeme.Regular ∧
      lexeme ≠ .sign '(' ∧ lexeme ≠ .sign ')' ∧ lexeme ≠ .sign ',' := by
  cases phrase with
  | statement | call => exact spelled.elim
  | name identifier =>
      have regular := ((@Token.hasSpelling_iff (.identifier _)).mp spelled).1
      exact ⟨_, rfl, regular, by simp, by simp, by simp⟩
  | number digits =>
      have regular := ((@Token.hasSpelling_iff (.number _)).mp spelled).1
      exact ⟨_, rfl, regular, by simp, by simp, by simp⟩
  | string content =>
      have regular := ((@Token.hasSpelling_iff (.string _)).mp spelled).1
      exact ⟨_, rfl, regular, by simp, by simp, by simp⟩
  | var =>
      have regular : Lexeme.Regular (.word "var".toList) := by
        simp [Lexeme.Regular]
      exact ⟨_, rfl, regular, by simp, by simp, by simp⟩
  | blank | newline | equals | semicolon =>
      refine ⟨_, rfl, ?_, by simp, by simp, by simp⟩
      simp [Lexeme.Regular]

section Separation

/-- Whether lexemes are found again in the text that they spell. -/
def Separated (parts : List Lexeme) : Prop :=
  (∀ part ∈ parts, part.Regular) ∧ parts.IsChain Lexeme.Apart

theorem separated_cons_iff {part : Lexeme} {parts : List Lexeme} :
    Separated (part :: parts) ↔
      part.Regular ∧ (∀ next ∈ parts.head?, part.Apart next) ∧
        Separated parts := by
  simp only [Separated, List.mem_cons, forall_eq_or_imp, List.isChain_cons]
  tauto

theorem Separated.sign {parts : List Lexeme} (separated : Separated parts)
    {character : Char} (regular : (Lexeme.sign character).Regular) :
    Separated (.sign character :: parts) := by
  refine separated_cons_iff.mpr ⟨regular, ?_, separated⟩
  intro next _
  simp [Lexeme.Apart, Lexeme.isWord, Lexeme.isNumber]

theorem Separated.separator {parts : List Lexeme}
    (separated : Separated parts) (place : Place) (written : Bool) :
    Separated (place.separator written ++ parts) := by
  unfold Place.separator
  split
  · exact (separated.sign (by simp [Lexeme.Regular])).sign
      (by simp [Lexeme.Regular])
  · exact separated

theorem Separated.closing {parts : List Lexeme}
    (separated : Separated parts) (place : Place) :
    Separated (place.closing ++ parts) := by
  cases place with
  | topLevel =>
      exact (separated.sign (by simp [Lexeme.Regular])).sign
        (by simp [Lexeme.Regular])
  | arguments => exact separated.sign (by simp [Lexeme.Regular])

/-- After an argument comes a comma or the end of the call. -/
theorem exists_sign_after_argument (phrases : List Phrase)
    {rest : List Lexeme} (ends : Place.Ends .arguments rest) :
    ∃ character following, character ≠ '(' ∧
      lexemesIn .arguments true phrases ++ rest =
        .sign character :: following := by
  cases phrases with
  | nil =>
      obtain ⟨following, rfl⟩ := ends
      exact ⟨')', following, by simp, rfl⟩
  | cons phrase phrases => exact ⟨',', _, by simp, rfl⟩

/-- The lexemes of legible phrases are found again in their text. -/
theorem Legible.separated {place : Place} {phrases : List Phrase}
    (legible : Legible place phrases) (written : Bool) {rest : List Lexeme}
    (restSeparated : Separated rest) (ends : place.Ends rest) :
    Separated (lexemesIn place written phrases ++ rest) := by
  induction legible generalizing written rest with
  | nil => exact restSeparated
  | @leaf place phrase phrases spelled apart tail induction =>
      obtain ⟨lexeme, written_eq, regular, -⟩ := spelled.exists_lexeme
      have tailSeparated := induction true restSeparated ends
      rw [lexemesIn, List.append_assoc, written_eq]
      apply Separated.separator
      rw [List.append_assoc, List.singleton_append]
      refine separated_cons_iff.mpr ⟨regular, ?_, tailSeparated⟩
      intro next isHead
      cases place with
      | topLevel =>
          cases ends
          rw [List.append_nil] at isHead
          exact apart rfl lexeme (by simp [written_eq]) next isHead
      | arguments =>
          obtain ⟨character, following, -, follows⟩ :=
            exists_sign_after_argument phrases ends
          rw [follows] at isHead
          cases isHead
          simp [Lexeme.Apart, Lexeme.isWord, Lexeme.isNumber]
  | @call place callee arguments phrases named inner tail innerInduction
      induction =>
      have tailSeparated := induction true restSeparated ends
      have closed := tailSeparated.closing place
      have callEnds : Place.Ends .arguments
          (place.closing ++ (lexemesIn place true phrases ++ rest)) := by
        cases place <;> exact ⟨_, rfl⟩
      have opened := innerInduction false closed callEnds
      have regular := (Token.hasSpelling_iff.mp named).1
      rw [lexemesIn, lexemes_placeCall, List.append_assoc]
      apply Separated.separator
      simp only [List.cons_append, List.append_assoc]
      refine separated_cons_iff.mpr ⟨regular, ?_, ?_⟩
      · intro next isHead
        cases isHead
        simp [Lexeme.Apart, Lexeme.isWord, Lexeme.isNumber]
      · exact opened.sign (by simp [Lexeme.Regular])

theorem Legible.separated_topLevel {phrases : List Phrase}
    (legible : Legible .topLevel phrases) :
    Separated (lexemesIn .topLevel false phrases) := by
  have empty : Separated [] := ⟨by simp, by simp⟩
  have separated := legible.separated false empty rfl
  rwa [List.append_nil] at separated

theorem Legible.lexemes_phrasesText {phrases : List Phrase}
    (legible : Legible .topLevel phrases) :
    ParenCall.lexemes (phrasesText phrases).toList =
      lexemesIn .topLevel false phrases := by
  have separated := legible.separated_topLevel
  rw [toList_phrasesText false]
  exact lexemes_flatMap_characters separated.1 separated.2

end Separation

section Decoding

/-- The phrase that is written as a lexeme. -/
def ofLexeme : Lexeme → Phrase
  | .word letters =>
      if letters = "var".toList then .var else .name (.ofList letters)
  | .number digits => .number (.ofList digits)
  | .string content => .string (.ofList content)
  | .sign character =>
      if character = '\n' then .newline
      else if character = '=' then .equals
      else if character = ';' then .semicolon
      else .blank

theorem ofLexeme_eq {phrase : Phrase} (spelled : phrase.IsSpelled)
    {lexeme : Lexeme} (written : phrase.lexemes = [lexeme]) :
    ofLexeme lexeme = phrase := by
  cases phrase with
  | statement | call => exact spelled.elim
  | name identifier =>
      cases written
      have notVar : identifier.toList ≠ "var".toList := by
        intro same
        exact spelled.2.1 (String.toList_inj.mp same)
      rw [ofLexeme, if_neg notVar, String.ofList_toList]
  | _ =>
      cases written
      simp [ofLexeme]

/-- A list that begins with a phrase does not look like the end of a list, and
does not begin with a parenthesis. -/
theorem Legible.exists_head {place : Place} {phrase : Phrase}
    {phrases : List Phrase} (legible : Legible place (phrase :: phrases))
    (written : Bool) (rest : List Lexeme) :
    ∃ lexeme following,
      lexemesIn place written (phrase :: phrases) ++ rest =
          lexeme :: following ∧
        lexeme ≠ .sign '(' ∧ lexeme ≠ .sign ')' := by
  have first : ∃ lexeme following, phrase.lexemes = lexeme :: following ∧
      lexeme ≠ .sign '(' ∧ lexeme ≠ .sign ')' := by
    cases legible with
    | leaf spelled apart tail =>
        obtain ⟨lexeme, lexemesEq, -, notOpen, notClose, -⟩ :=
          spelled.exists_lexeme
        exact ⟨lexeme, [], lexemesEq, notOpen, notClose⟩
    | call named inner tail =>
        exact ⟨_, _, lexemes_placeCall _ _ _, by simp, by simp⟩
  obtain ⟨lexeme, following, lexemesEq, notOpen, notClose⟩ := first
  rw [lexemesIn, lexemesEq]
  unfold Place.separator
  split
  · exact ⟨_, _, rfl, by simp, by simp⟩
  · exact ⟨_, _, rfl, notOpen, notClose⟩

theorem Legible.not_ends {place : Place} {phrase : Phrase}
    {phrases : List Phrase} (legible : Legible place (phrase :: phrases))
    (written : Bool) (rest : List Lexeme) :
    ¬ place.Ends (lexemesIn place written (phrase :: phrases) ++ rest) := by
  obtain ⟨lexeme, following, begins, -, notClose⟩ :=
    legible.exists_head written rest
  rw [begins]
  cases place with
  | topLevel => simp [Place.Ends]
  | arguments => simp [Place.Ends, notClose]

/-- What follows a phrase does not begin with a parenthesis, so that no other
phrase than a call looks like one. -/
theorem Legible.head_ne_paren {place : Place} {phrases : List Phrase}
    (legible : Legible place phrases) {rest : List Lexeme}
    (ends : place.Ends rest) (following : List Lexeme) :
    lexemesIn place true phrases ++ rest ≠ .sign '(' :: following := by
  cases phrases with
  | nil =>
      cases place with
      | topLevel =>
          cases ends
          simp [lexemesIn]
      | arguments =>
          obtain ⟨others, rfl⟩ := ends
          simp [lexemesIn]
  | cons phrase phrases =>
      obtain ⟨lexeme, others, begins, notOpen, -⟩ :=
        legible.exists_head true rest
      rw [begins]
      simp [notOpen]

theorem lexemesIn_cons_append_inj {place : Place} {written : Bool}
    {first second : Phrase} {firsts seconds : List Phrase}
    {firstRest secondRest : List Lexeme} :
    lexemesIn place written (first :: firsts) ++ firstRest =
        lexemesIn place written (second :: seconds) ++ secondRest ↔
      first.lexemes ++ (lexemesIn place true firsts ++ firstRest) =
        second.lexemes ++ (lexemesIn place true seconds ++ secondRest) := by
  simp only [lexemesIn, List.append_assoc, List.append_cancel_left_eq]

/-- Legible phrases can be read off their lexemes. -/
theorem Legible.eq_of_lexemesIn {place : Place} {first second : List Phrase}
    (legible : Legible place first) (otherLegible : Legible place second)
    (written : Bool) {firstRest secondRest : List Lexeme}
    (ends : place.Ends firstRest) (otherEnds : place.Ends secondRest)
    (same : lexemesIn place written first ++ firstRest =
      lexemesIn place written second ++ secondRest) :
    first = second ∧ firstRest = secondRest := by
  induction legible generalizing second written firstRest secondRest with
  | nil =>
      cases second with
      | nil => exact ⟨rfl, same⟩
      | cons phrase phrases =>
          rw [lexemesIn, List.nil_append] at same
          rw [same] at ends
          exact absurd ends (otherLegible.not_ends written secondRest)
  | @leaf place phrase phrases spelled apart tail induction =>
      cases otherLegible with
      | nil =>
          rw [lexemesIn, List.nil_append] at same
          rw [← same] at otherEnds
          exact absurd otherEnds
            ((Legible.leaf spelled apart tail).not_ends written firstRest)
      | @leaf _ otherPhrase others otherSpelled _ otherTail =>
          obtain ⟨lexeme, lexemesEq, -⟩ := spelled.exists_lexeme
          obtain ⟨otherLexeme, otherEq, -⟩ := otherSpelled.exists_lexeme
          rw [lexemesIn_cons_append_inj, lexemesEq, otherEq] at same
          simp only [List.cons_append, List.nil_append, List.cons.injEq] at same
          obtain ⟨rfl, rests⟩ := same
          have phraseEq : phrase = otherPhrase := by
            rw [← ofLexeme_eq spelled lexemesEq, ofLexeme_eq otherSpelled otherEq]
          obtain ⟨rfl, restEq⟩ :=
            induction otherTail true ends otherEnds rests
          exact ⟨by rw [phraseEq], restEq⟩
      | @call _ callee arguments others named inner otherTail =>
          -- The one lexeme of the leaf would have the parenthesis after it.
          obtain ⟨lexeme, lexemesEq, -⟩ := spelled.exists_lexeme
          rw [lexemesIn_cons_append_inj, lexemesEq, lexemes_placeCall] at same
          simp only [List.cons_append, List.nil_append, List.cons.injEq] at same
          exact absurd same.2 (tail.head_ne_paren ends _)
  | @call place callee arguments phrases named inner tail innerInduction
      induction =>
      cases otherLegible with
      | nil =>
          rw [lexemesIn, List.nil_append] at same
          rw [← same] at otherEnds
          exact absurd otherEnds
            ((Legible.call named inner tail).not_ends written firstRest)
      | @leaf _ otherPhrase others otherSpelled _ otherTail =>
          obtain ⟨lexeme, lexemesEq, -⟩ := otherSpelled.exists_lexeme
          rw [lexemesIn_cons_append_inj, lexemesEq, lexemes_placeCall] at same
          simp only [List.cons_append, List.nil_append, List.cons.injEq] at same
          exact absurd same.2.symm (otherTail.head_ne_paren otherEnds _)
      | @call _ otherCallee otherArguments others _ otherInner otherTail =>
          rw [lexemesIn_cons_append_inj, lexemes_placeCall, lexemes_placeCall]
            at same
          simp only [List.cons_append, List.append_assoc, List.cons.injEq,
            Lexeme.word.injEq, String.toList_inj, true_and] at same
          obtain ⟨rfl, inside⟩ := same
          have callEnds (following : List Lexeme) :
              Place.Ends .arguments (place.closing ++ following) := by
            cases place <;> exact ⟨_, rfl⟩
          obtain ⟨rfl, rests⟩ := innerInduction otherInner false
            (callEnds _) (callEnds _) inside
          rw [List.append_cancel_left_eq] at rests
          obtain ⟨rfl, restEq⟩ :=
            induction otherTail true ends otherEnds rests
          exact ⟨rfl, restEq⟩

/-- The text of legible phrases tells the phrases. -/
theorem Legible.eq_of_phrasesText {first second : List Phrase}
    (legible : Legible .topLevel first)
    (otherLegible : Legible .topLevel second)
    (same : phrasesText first = phrasesText second) : first = second := by
  have lexed := legible.lexemes_phrasesText
  rw [same, otherLegible.lexemes_phrasesText] at lexed
  have ends : Place.Ends .topLevel [] := rfl
  exact (legible.eq_of_lexemesIn otherLegible false ends ends
    (by rw [lexed])).1

end Decoding

end Phrase

end ParenCall
