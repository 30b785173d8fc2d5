import ParenCall.Proofs.LegibleLowering

/-!
# Preserved content

The content of a text is what is left of it when everything outside strings is
deleted but letters, digits and line feeds.  Compilation moves parentheses,
adds signs and drops blanks, and yet it keeps the content in its order: only
the keyword goes, and only if the options drop it.

The content of a text is the content of its lexemes.  Lowering keeps the
lexemes with content in the order of the tokens, and the lexemes of a legible
output text are those of its phrases.
-/

namespace ParenCall

/-- What the content of a text keeps of a character outside strings. -/
def contentCharacter (character : Char) : List Char :=
  if character.isAlpha || character.isDigit || character = '\n' then
    [character]
  else
    []

/-- The letters, digits and line feeds of a text, and its strings as they
are. -/
def content (text : String) : String :=
  .ofList (editOutsideStrings contentCharacter false text.toList)

/-- The lexeme of the keyword. -/
def Lexeme.keyword : Lexeme :=
  .word "var".toList

/-- A text without the lexemes that are the keyword. -/
def withoutKeyword (text : String) : String :=
  .ofList
    (((lexemes text.toList).filter (· ≠ .keyword)).flatMap Lexeme.characters)

namespace Lexeme

def isSign : Lexeme → Bool
  | .sign _ => true
  | _ => false

/-- Whether a lexeme has content that the options leave in the output. -/
def hasContent (options : Options) : Lexeme → Bool
  | .word letters => options.keepVar || letters ≠ "var".toList
  | .number _ | .string _ => true
  | .sign character => character = '\n'

end Lexeme

/-- The words, numbers and strings in each line of a text.  A line feed in a
string ends no line. -/
def lineWords (text : String) : List (List Lexeme) :=
  ((lexemes text.toList).splitOnP (· = .sign '\n')).map
    (List.filter fun lexeme => !lexeme.isSign)

section Texts

theorem flatMap_contentCharacter {characters : List Char}
    (all : ∀ character ∈ characters,
      character.isAlpha || character.isDigit || character = '\n') :
    characters.flatMap contentCharacter = characters := by
  induction characters with
  | nil => rfl
  | cons character characters induction =>
      have first := all character (by simp)
      have others :=
        induction fun other member => all other (by simp [member])
      rw [List.flatMap_cons, others, contentCharacter, if_pos first,
        List.singleton_append]

theorem Lexeme.edited_contentCharacter {lexeme : Lexeme}
    (regular : lexeme.Regular) :
    lexeme.edited contentCharacter =
      if lexeme.hasContent ⟨true⟩ then lexeme.characters else [] := by
  cases lexeme with
  | word letters =>
      refine flatMap_contentCharacter fun letter member => ?_
      simp [regular.2 letter member]
  | number digits =>
      refine flatMap_contentCharacter fun digit member => ?_
      simp [regular.2 digit member]
  | string content => rfl
  | sign character =>
      simp [Lexeme.edited, Lexeme.characters, contentCharacter,
        Lexeme.hasContent, regular.2.1, regular.2.2]

/-- The content of a text is that of its lexemes. -/
theorem editOutsideStrings_contentCharacter {parts : List Lexeme}
    (regular : ∀ part ∈ parts, part.Regular) :
    editOutsideStrings contentCharacter false
        (parts.flatMap Lexeme.characters) =
      (parts.filter (Lexeme.hasContent ⟨true⟩)).flatMap Lexeme.characters := by
  rw [editOutsideStrings_flatMap_characters contentCharacter regular]
  induction parts with
  | nil => rfl
  | cons part parts induction =>
      have others :=
        induction fun other member => regular other (by simp [member])
      rw [List.flatMap_cons, others,
        Lexeme.edited_contentCharacter (regular part (by simp)),
        List.filter_cons]
      split
      · rw [List.flatMap_cons]
      · rfl

theorem count_newline_characters {options : Options} {lexeme : Lexeme}
    (empty : lexeme.hasContent options = false) :
    lexeme.characters.count '\n' = 0 := by
  cases lexeme with
  | word letters =>
      have isVar : letters = "var".toList := by
        simpa [Lexeme.hasContent] using (Bool.or_eq_false_iff.mp empty).2
      rw [isVar]
      rfl
  | number | string => cases empty
  | sign character =>
      have solid : character ≠ '\n' := by
        simpa [Lexeme.hasContent] using empty
      simp [Lexeme.characters, solid]

/-- The line feeds of a text are among its content. -/
theorem count_newline_filter_hasContent (options : Options)
    (parts : List Lexeme) :
    ((parts.filter (Lexeme.hasContent options)).flatMap
        Lexeme.characters).count '\n' =
      (parts.flatMap Lexeme.characters).count '\n' := by
  induction parts with
  | nil => rfl
  | cons part parts induction =>
      rw [List.flatMap_cons, List.count_append, List.filter_cons]
      split
      · rw [List.flatMap_cons, List.count_append, induction]
      · rename_i empty
        rw [count_newline_characters (Bool.eq_false_iff.mpr empty), induction,
          Nat.zero_add]

/-- Deleting what is no separator commutes with splitting. -/
theorem splitOnP_filter {separates wanted kept : Lexeme → Bool}
    (agree : ∀ lexeme, kept lexeme = (separates lexeme || wanted lexeme))
    (parts : List Lexeme) :
    (parts.filter kept).splitOnP separates =
      (parts.splitOnP separates).map (List.filter wanted) := by
  induction parts with
  | nil => simp [List.splitOnP_nil]
  | cons part parts induction =>
      obtain ⟨line, lines, split⟩ :=
        List.exists_cons_of_ne_nil (List.splitOnP_ne_nil separates parts)
      rw [split] at induction
      cases separated : separates part <;> cases isWanted : wanted part <;>
        simp [agree, separated, isWanted,
          List.splitOnP_cons_eq_if_modifyHead, induction, split]

end Texts

namespace Phrase

/-- The lexemes of a phrase that have content. -/
def contents (phrase : Phrase) : List Lexeme :=
  phrase.lexemes.filter (Lexeme.hasContent ⟨true⟩)

/-- The signs between phrases have no content. -/
theorem filter_lexemesIn (place : Place) (written : Bool)
    (phrases : List Phrase) :
    (lexemesIn place written phrases).filter (Lexeme.hasContent ⟨true⟩) =
      phrases.flatMap contents := by
  induction phrases generalizing written with
  | nil => rfl
  | cons phrase phrases induction =>
      have empty : (place.separator written).filter
          (Lexeme.hasContent ⟨true⟩) = [] := by
        cases place <;> cases written <;> rfl
      rw [lexemesIn, List.filter_append, List.filter_append, empty, induction,
        List.flatMap_cons, contents, List.nil_append]

theorem contents_placeCall (place : Place) (callee : String)
    (arguments : List Phrase) :
    (place.call callee arguments).contents =
      .word callee.toList :: arguments.flatMap contents := by
  have closed : place.closing.filter (Lexeme.hasContent ⟨true⟩) = [] := by
    cases place <;> rfl
  have inside := filter_lexemesIn .arguments false arguments
  rw [contents, lexemes_placeCall]
  simp [Lexeme.hasContent, closed, inside]

end Phrase

section Lowering

open Form

variable (options : Options)

/-- The lexemes of tokens that the options leave in the output. -/
def keptContents (tokens : List Token) : List Lexeme :=
  (tokens.map Token.lexeme).filter (Lexeme.hasContent options)

/-- The lexemes with content in the phrases of neighbouring forms. -/
def loweredContents (place : Place) (forms : List Form) : List Lexeme :=
  (lowerAll options place false forms).flatMap Phrase.contents

theorem keptContents_append (first second : List Token) :
    keptContents options (first ++ second) =
      keptContents options first ++ keptContents options second := by
  rw [keptContents, List.map_append, List.filter_append, keptContents,
    keptContents]

theorem keptContents_cons (token : Token) (tokens : List Token) :
    keptContents options (token :: tokens) =
      keptContents options [token] ++ keptContents options tokens := by
  exact keptContents_append options [token] tokens

theorem loweredContents_blank (place : Place) (forms : List Form) :
    loweredContents options place (.blank :: forms) =
      loweredContents options place forms := by
  cases place <;>
    simp [loweredContents, lowerAll, Phrase.contents, Phrase.lexemes,
      Lexeme.hasContent]

/-- A dropped keyword takes no content along. -/
theorem flatMap_contents_afterVar (place : Place) (forms : List Form) :
    (lowerAll options place true forms).flatMap Phrase.contents =
      loweredContents options place forms := by
  induction forms with
  | nil => simp [loweredContents, lowerAll]
  | cons form forms induction =>
      cases form with
      | blank =>
          rw [loweredContents_blank, ← induction]
          simp [lowerAll]
      | _ => simp [loweredContents, lowerAll]

theorem loweredContents_var (place : Place) (forms : List Form) :
    loweredContents options place (.var :: forms) =
      keptContents options [.var] ++ loweredContents options place forms := by
  cases keeps : options.keepVar with
  | true =>
      simp [loweredContents, lowerAll, keeps, keptContents, Phrase.contents,
        Phrase.lexemes, Lexeme.hasContent, Token.lexeme]
  | false =>
      have after := flatMap_contents_afterVar options place forms
      simpa [loweredContents, lowerAll, keeps, keptContents,
        Lexeme.hasContent, Token.lexeme] using after

theorem loweredContents_cons {form : Form} (stays : form.goesWithVar = false)
    (place : Place) (forms : List Form) :
    loweredContents options place (form :: forms) =
      (lower options place form).contents ++
        loweredContents options place forms := by
  cases form with
  | blank | var => cases stays
  | _ => simp [loweredContents, lowerAll]

theorem loweredContents_trivia {form : Form} (isTrivia : form.isTrivia)
    (place : Place) (forms : List Form) :
    loweredContents options place (form :: forms) =
      keptContents options form.unread ++
        loweredContents options place forms := by
  cases form with
  | blank => exact loweredContents_blank options place forms
  | newline => exact loweredContents_cons options rfl place forms
  | _ => cases isTrivia

theorem loweredContents_literal {form : Form} (isLiteral : form.isLiteral)
    (place : Place) (forms : List Form) :
    loweredContents options place (form :: forms) =
      keptContents options form.unread ++
        loweredContents options place forms := by
  cases form with
  | number | string => exact loweredContents_cons options rfl place forms
  | _ => cases isLiteral

theorem loweredContents_semicolon (place : Place) (forms : List Form) :
    loweredContents options place (.semicolon :: forms) =
      loweredContents options place forms := by
  exact loweredContents_cons options rfl place forms

theorem loweredContents_layout_append {layout : List Form}
    (layoutTrivia : ∀ form ∈ layout, form.isTrivia) (place : Place)
    (forms : List Form) :
    loweredContents options place (layout ++ forms) =
      keptContents options (unreadAll layout) ++
        loweredContents options place forms := by
  induction layout with
  | nil => rfl
  | cons form layout induction =>
      have isTrivia := layoutTrivia form (by simp)
      have others :=
        induction fun other member => layoutTrivia other (by simp [member])
      rw [List.cons_append, loweredContents_trivia options isTrivia, others,
        unreadAll_trivia isTrivia, keptContents_append, List.append_assoc]

theorem hasContent_word {name : String}
    (spelled : (Token.identifier name).HasSpelling) :
    Lexeme.hasContent options (.word name.toList) := by
  have notVar : name.toList ≠ "var".toList := by
    intro same
    exact spelled.2.1 (String.toList_inj.mp same)
  simp only [Lexeme.hasContent, notVar, ne_eq, not_false_eq_true, decide_true,
    Bool.or_true]

/-- The signs that reading adds after a target have no content. -/
theorem loweredContents_target {name : String}
    (spelled : (Token.identifier name).HasSpelling) (place : Place)
    (forms : List Form) :
    loweredContents options place (.name name :: .blank :: .equals :: forms) =
      keptContents options [.identifier name] ++
        loweredContents options place forms := by
  have kept : keptContents options [.identifier name] =
      [.word name.toList] :=
    List.filter_cons_of_pos (hasContent_word options spelled)
  rw [loweredContents_cons options rfl, loweredContents_blank,
    loweredContents_cons options rfl, kept]
  rfl

theorem loweredContents_call {callee : String}
    (spelled : (Token.identifier callee).HasSpelling) (place : Place)
    (arguments forms : List Form) :
    loweredContents options place (.call callee arguments :: forms) =
      keptContents options [.identifier callee] ++
        (loweredContents options .arguments arguments ++
          loweredContents options place forms) := by
  have kept : keptContents options [.identifier callee] =
      [.word callee.toList] :=
    List.filter_cons_of_pos (hasContent_word options spelled)
  rw [loweredContents_cons options rfl, lower, Phrase.contents_placeCall, kept]
  rfl

/-- Lowering keeps the content of the tokens, in their order. -/
theorem loweredContents_eq {place : Place} {forms : List Form}
    (wellFormed : WellFormed place forms)
    (spelled : ∀ token ∈ unreadAll forms, token.HasSpelling) :
    loweredContents options place forms =
      keptContents options (unreadAll forms) := by
  induction wellFormed with
  | nil => rfl
  | @trivia place form forms isTrivia tail induction =>
      rw [unreadAll_trivia isTrivia] at spelled ⊢
      have rest := induction fun token member =>
        spelled token (by simp [member])
      rw [loweredContents_trivia options isTrivia, rest, keptContents_append]
  | @literal place form forms isLiteral tail induction =>
      rw [unreadAll_literal isLiteral] at spelled ⊢
      have rest := induction fun token member =>
        spelled token (by simp [member])
      rw [loweredContents_literal options isLiteral, rest, keptContents_append]
  | @equals place forms tail induction =>
      -- No text has a token for an equals sign.
      rw [unreadAll_equals] at spelled
      exact (spelled .equal (by simp)).elim
  | @call place callee arguments forms inner tail innerInduction induction =>
      rw [unreadAll_call] at spelled ⊢
      have named := spelled (.identifier callee) (by simp)
      have inside := innerInduction fun token member =>
        spelled token (by simp [member])
      have rest := induction fun token member =>
        spelled token (by simp [member])
      have closes : keptContents options (.rightParen :: unreadAll forms) =
          keptContents options (unreadAll forms) := rfl
      rw [loweredContents_call options named, inside, rest, ← closes,
        ← keptContents_append, ← keptContents_cons]
      rfl
  | @target place name forms next tail induction =>
      rw [unreadAll_target] at spelled ⊢
      have named := spelled (.identifier name) (by simp)
      have rest := induction fun token member =>
        spelled token (by simp [member])
      rw [loweredContents_target options named, rest, ← keptContents_cons]
  | @argumentVar forms tail induction =>
      rw [unreadAll_var] at spelled ⊢
      have rest := induction fun token member =>
        spelled token (by simp [member])
      rw [loweredContents_var, rest, ← keptContents_cons]
  | @declaration name literal layout spacing forms layoutTrivia spacingTrivia
      isLiteral tail induction =>
      rw [unreadAll_declaration layoutTrivia spacingTrivia isLiteral]
        at spelled ⊢
      have named := spelled (.identifier name) (by simp)
      have rest := induction fun token member =>
        spelled token (by simp [member])
      rw [loweredContents_var,
        loweredContents_layout_append options layoutTrivia,
        loweredContents_target options named,
        loweredContents_layout_append options spacingTrivia,
        loweredContents_literal options isLiteral,
        loweredContents_semicolon, rest, ← keptContents_append,
        ← keptContents_append, ← keptContents_cons, ← keptContents_append,
        ← keptContents_cons]

end Lowering

/-- A blank has no content, whatever its character is. -/
theorem Lexeme.hasContent_spaced (options : Options) (lexeme : Lexeme) :
    lexeme.spaced.hasContent options = lexeme.hasContent options := by
  cases lexeme with
  | sign character =>
      simp only [Lexeme.spaced, spaceBlank, Lexeme.hasContent]
      split
      · rename_i blank
        simp [blank.2]
      · rfl
  | word | number | string => rfl

theorem Lexeme.spaced_eq_self {options : Options} {lexeme : Lexeme}
    (full : lexeme.hasContent options) : lexeme.spaced = lexeme := by
  cases lexeme with
  | sign character =>
      have isNewline : character = '\n' := by
        simpa [Lexeme.hasContent] using full
      simp [Lexeme.spaced, spaceBlank, isNewline]
  | word | number | string => rfl

theorem filter_map_spaced (options : Options) (parts : List Lexeme) :
    (parts.map Lexeme.spaced).filter (Lexeme.hasContent options) =
      parts.filter (Lexeme.hasContent options) := by
  induction parts with
  | nil => rfl
  | cons part parts induction =>
      rw [List.map_cons, List.filter_cons, List.filter_cons, induction,
        Lexeme.hasContent_spaced]
      split
      · rename_i full
        rw [Lexeme.spaced_eq_self full]
      · rfl

section Compilation

variable {options : Options} {source output : String}

/-- The lexemes with content are the same in the source and in the output. -/
theorem filter_lexemes_of_compile
    (compiles : compile options source = .ok output) :
    (lexemes output.toList).filter (Lexeme.hasContent ⟨true⟩) =
      (lexemes source.toList).filter (Lexeme.hasContent options) := by
  obtain ⟨forms, reads, rfl⟩ := exists_sourceForms_of_compile compiles
  obtain ⟨tokens, scans, accepts⟩ := sourceForms_eq_ok_iff.mp reads
  have legible := legible_lowerForms options reads
  obtain ⟨wellFormed, rfl⟩ := wellFormed_of_readForms accepts
  have canonical := canonical_of_scan scans
  have spaced := map_spaced_eq_map_lexeme (scan_eq_ok_iff_forall₂.mp scans)
  calc
    (lexemes (phrasesText (lowerForms options forms)).toList).filter
          (Lexeme.hasContent ⟨true⟩) =
        loweredContents options .topLevel forms := by
      rw [legible.lexemes_phrasesText, Phrase.filter_lexemesIn]
      rfl
    _ = keptContents options (Form.unreadAll forms) :=
      loweredContents_eq options wellFormed canonical.spelled
    _ = (lexemes source.toList).filter (Lexeme.hasContent options) := by
      rw [keptContents, ← spaced, filter_map_spaced]

theorem regular_of_compile (compiles : compile options source = .ok output) :
    (∀ lexeme ∈ lexemes source.toList, lexeme.Regular) ∧
      ∀ lexeme ∈ lexemes output.toList, lexeme.Regular := by
  obtain ⟨forms, reads, rfl⟩ := exists_sourceForms_of_compile compiles
  obtain ⟨tokens, scans, accepts⟩ := sourceForms_eq_ok_iff.mp reads
  have legible := legible_lowerForms options reads
  refine ⟨regular_of_scan scans, ?_⟩
  rw [legible.lexemes_phrasesText]
  exact legible.separated_topLevel.1

theorem quotesPaired_of_regular_lexemes {text : List Char}
    (regular : ∀ lexeme ∈ lexemes text, lexeme.Regular) :
    QuotesPaired text := by
  rw [← flatMap_characters_lexemes text]
  exact quotesPaired_flatMap_characters regular

theorem content_eq {text : String}
    (regular : ∀ lexeme ∈ lexemes text.toList, lexeme.Regular) :
    content text =
      .ofList (((lexemes text.toList).filter
        (Lexeme.hasContent ⟨true⟩)).flatMap Lexeme.characters) := by
  have cut := editOutsideStrings_contentCharacter regular
  rw [flatMap_characters_lexemes] at cut
  rw [content, cut]

theorem filter_ne_keyword (parts : List Lexeme) :
    (parts.filter (· ≠ .keyword)).filter (Lexeme.hasContent ⟨true⟩) =
      parts.filter (Lexeme.hasContent ⟨false⟩) := by
  rw [List.filter_filter]
  apply List.filter_congr
  intro lexeme _
  cases lexeme <;> simp [Lexeme.hasContent, Lexeme.keyword]

theorem content_withoutKeyword
    (regular : ∀ lexeme ∈ lexemes source.toList, lexeme.Regular) :
    content (withoutKeyword source) =
      .ofList (((lexemes source.toList).filter
        (Lexeme.hasContent ⟨false⟩)).flatMap Lexeme.characters) := by
  have left : ∀ lexeme ∈ (lexemes source.toList).filter (· ≠ .keyword),
      lexeme.Regular := by
    intro lexeme member
    exact regular lexeme (List.mem_of_mem_filter member)
  rw [content, withoutKeyword, String.toList_ofList,
    editOutsideStrings_contentCharacter left, filter_ne_keyword]

theorem count_newline_of_compile
    (compiles : compile options source = .ok output) :
    output.toList.count '\n' = source.toList.count '\n' := by
  rw [← flatMap_characters_lexemes output.toList,
    ← flatMap_characters_lexemes source.toList,
    ← count_newline_filter_hasContent ⟨true⟩,
    filter_lexemes_of_compile compiles, count_newline_filter_hasContent]

theorem lineWords_eq (text : String) :
    lineWords text =
      ((lexemes text.toList).filter
        (Lexeme.hasContent ⟨true⟩)).splitOnP (· = .sign '\n') := by
  refine (splitOnP_filter ?_ _).symm
  intro lexeme
  cases lexeme <;> simp [Lexeme.hasContent, Lexeme.isSign]

theorem content_of_compile (compiles : compile options source = .ok output) :
    content output =
      content (if options.keepVar then source else withoutKeyword source) := by
  obtain ⟨sourceRegular, outputRegular⟩ := regular_of_compile compiles
  rw [content_eq outputRegular, filter_lexemes_of_compile compiles]
  obtain ⟨keepVar⟩ := options
  cases keepVar with
  | true => rw [if_pos rfl, content_eq sourceRegular]
  | false =>
      rw [if_neg Bool.false_ne_true, content_withoutKeyword sourceRegular]

theorem lineWords_of_compile
    (compiles : compile options source = .ok output) :
    lineWords output =
      if options.keepVar then lineWords source
      else (lineWords source).map (List.filter (· ≠ .keyword)) := by
  rw [lineWords_eq output, filter_lexemes_of_compile compiles]
  obtain ⟨keepVar⟩ := options
  cases keepVar with
  | true => rw [if_pos rfl, lineWords_eq]
  | false =>
      -- The keyword ends no line, so it can be deleted line by line.
      rw [if_neg Bool.false_ne_true, lineWords_eq, ← filter_ne_keyword,
        List.filter_comm]
      apply splitOnP_filter
      intro lexeme
      cases lexeme <;> simp [Lexeme.keyword]

/-- Compilation neither loses nor adds nor moves content, except that it drops
the keyword if the options say so.  Each line of the output has the names and
literals of the same line of the source, in their order. -/
theorem compile_preserves_content
    (compiles : compile options source = .ok output) :
    QuotesPaired source.toList ∧ QuotesPaired output.toList ∧
      content output =
        content (if options.keepVar then source else withoutKeyword source) ∧
      output.toList.count '\n' = source.toList.count '\n' ∧
      lineWords output =
        if options.keepVar then lineWords source
        else (lineWords source).map (List.filter (· ≠ .keyword)) := by
  obtain ⟨sourceRegular, outputRegular⟩ := regular_of_compile compiles
  exact ⟨quotesPaired_of_regular_lexemes sourceRegular,
    quotesPaired_of_regular_lexemes outputRegular, content_of_compile compiles,
    count_newline_of_compile compiles, lineWords_of_compile compiles⟩

theorem compile_preserves_content_declaration_call :
    compile ⟨false⟩ "var a \"var;\n\"\n(f b 2)" =
        .ok "a = \"var;\n\";\nf(b, =, 2);" ∧
      QuotesPaired "var a \"var;\n\"\n(f b 2)".toList ∧
      QuotesPaired "a = \"var;\n\";\nf(b, =, 2);".toList ∧
      content "a = \"var;\n\";\nf(b, =, 2);" =
        content (withoutKeyword "var a \"var;\n\"\n(f b 2)") ∧
      "a = \"var;\n\";\nf(b, =, 2);".toList.count '\n' =
        "var a \"var;\n\"\n(f b 2)".toList.count '\n' ∧
      lineWords "a = \"var;\n\";\nf(b, =, 2);" =
        (lineWords "var a \"var;\n\"\n(f b 2)").map
          (List.filter (· ≠ .keyword)) := by
  have compiles : compile ⟨false⟩ "var a \"var;\n\"\n(f b 2)" =
      .ok "a = \"var;\n\";\nf(b, =, 2);" := by cbv
  have preserved := compile_preserves_content compiles
  rw [if_neg Bool.false_ne_true, if_neg Bool.false_ne_true] at preserved
  exact ⟨compiles, preserved⟩

example :
    content "a = \"var;\n\";\nf(b, =, 2);" =
      "a\"var;\n\"\nfb2" := by
  cbv

end Compilation

end ParenCall
