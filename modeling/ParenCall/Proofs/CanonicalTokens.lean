import ParenCall.Proofs.ConcatenatedCharacters
import ParenCall.Proofs.TextLexemes

/-!
# Canonical lists of tokens

Scanning takes a text lexeme by lexeme: a list of tokens comes from a text
exactly if each of its tokens is the token of one lexeme.  The only thing that
a token does not tell about its lexeme is which blank character it was.

So the lists of tokens that some text has are those in which every token can be
spelled and no two numbers and no two names are neighbours.  Such a list is
scanned from its spelling, and from every other text that differs from this
spelling only in the choice of its blank characters.
-/

namespace ParenCall

/-- The token of a lexeme. -/
def Lexeme.token : Lexeme → Except ScanError Token
  | .word letters => .ok (.ofWord (.ofList letters))
  | .number digits => .ok (.number (.ofList digits))
  | .string content => .ok (.string (.ofList content))
  | .sign character =>
      if character = '\n' then .ok .newline
      else if character = '(' then .ok .leftParen
      else if character = ')' then .ok .rightParen
      else if character = '"' then .error .unterminatedString
      else if isBlank character then .ok .blank
      else .error (.unexpectedCharacter character)

section Scanning

theorem isBlank_eq_false_of_isDigit {character : Char}
    (isDigit : character.isDigit) : isBlank character = false := by
  by_contra blank
  simp only [Bool.not_eq_false, isBlank, blankRanges, List.any_cons,
    List.any_nil, Bool.or_eq_true, CodePointRange.contains_eq_true_iff,
    Char.toNat] at blank
  simp [Char.isDigit, UInt32.le_iff_toNat_le] at isDigit blank
  omega

theorem isBlank_eq_false_of_isAlpha {character : Char}
    (isAlpha : character.isAlpha) : isBlank character = false := by
  by_contra blank
  simp only [Bool.not_eq_false, isBlank, blankRanges, List.any_cons,
    List.any_nil, Bool.or_eq_true, CodePointRange.contains_eq_true_iff,
    Char.toNat] at blank
  simp [Char.isAlpha, Char.isUpper, Char.isLower,
    UInt32.le_iff_toNat_le] at isAlpha blank
  omega

theorem ne_sign_of_isDigit_or_isAlpha {character : Char}
    (solid : character.isDigit ∨ character.isAlpha) :
    character ≠ '\n' ∧ character ≠ '(' ∧ character ≠ ')' := by
  refine ⟨?_, ?_, ?_⟩ <;> rintro rfl <;> exact absurd solid (by decide)

/-- The first token of a text is the token of its first lexeme. -/
theorem lexToken_eq_firstLexeme (character : Char) (rest : List Char) :
    (lexToken character rest).1 = (firstLexeme character rest).1.token ∧
      ∀ token, (lexToken character rest).1 = .ok token →
        (lexToken character rest).2 = (firstLexeme character rest).2 := by
  by_cases isQuote : character = '"'
  · subst isQuote
    have lexed : lexToken '"' rest = lexString rest := rfl
    cases closed : rest.dropWhile (· ≠ '"') with
    | nil =>
        have first : firstLexeme '"' rest = (.sign '"', rest) := by
          simp only [firstLexeme, if_true, closed]
        rw [lexed, first, lexString, closed]
        simp [Lexeme.token]
    | cons closing following =>
        have first : firstLexeme '"' rest =
            (.string (rest.takeWhile (· ≠ '"')), following) := by
          simp only [firstLexeme, if_true, closed]
        rw [lexed, first, lexString, closed]
        exact ⟨rfl, fun _ _ => rfl⟩
  by_cases isDigit : character.isDigit
  · have solid := ne_sign_of_isDigit_or_isAlpha (Or.inl isDigit)
    simp [lexToken, firstLexeme, isQuote, isDigit, solid,
      isBlank_eq_false_of_isDigit isDigit, Lexeme.token]
  by_cases isAlpha : character.isAlpha
  · have solid := ne_sign_of_isDigit_or_isAlpha (Or.inr isAlpha)
    simp [lexToken, firstLexeme, isQuote, isDigit, isAlpha, solid,
      isBlank_eq_false_of_isAlpha isAlpha, Lexeme.token]
  -- What is left is a sign, which is read by itself.
  simp only [lexToken, firstLexeme, isQuote, isDigit, isAlpha, if_false,
    Bool.false_eq_true, Lexeme.token]
  repeat' split
  all_goals simp

/-- Scanning gives the tokens of the lexemes, up to the first that has none. -/
theorem lexAll_eq_mapM_lexemes (characters : List Char) :
    (lexAll characters).1 = (lexemes characters).mapM Lexeme.token := by
  induction characters using lexAll.induct with
  | case1 => simp [lexAll_nil, pure, Except.pure]
  | case2 character rest error following fails =>
      obtain ⟨same, -⟩ := lexToken_eq_firstLexeme character rest
      rw [fails] at same
      rw [lexAll_cons_of_error fails, lexemes_cons, List.mapM_cons, ← same]
      rfl
  | case3 character rest token following reads induction =>
      obtain ⟨same, rests⟩ := lexToken_eq_firstLexeme character rest
      rw [reads] at same rests
      rw [lexAll_cons_of_ok reads, lexemes_cons, List.mapM_cons, ← same,
        ← rests token rfl, induction]
      cases (lexemes following).mapM Lexeme.token <;> rfl

theorem mapM_eq_ok_iff {parts : List Lexeme} {tokens : List Token} :
    parts.mapM Lexeme.token = .ok tokens ↔
      List.Forall₂ (fun part token => part.token = .ok token) parts tokens := by
  induction parts generalizing tokens with
  | nil => cases tokens <;> simp [pure, Except.pure]
  | cons part parts induction =>
      rw [List.mapM_cons]
      cases first : part.token with
      | error error => cases tokens <;> simp [bind, Except.bind, first]
      | ok token =>
          cases rest : parts.mapM Lexeme.token with
          | error error =>
              cases tokens <;>
                simp [bind, Except.bind, first, ← induction, rest]
          | ok others =>
              cases tokens <;>
                simp [bind, Except.bind, pure, Except.pure, first, ← induction,
                  rest]

theorem scan_eq_ok_iff_forall₂ {source : String} {tokens : List Token} :
    scan source = .ok tokens ↔
      List.Forall₂ (fun lexeme token => lexeme.token = .ok token)
        (lexemes source.toList) tokens := by
  rw [scan_eq_lexAll, lexAll_eq_mapM_lexemes, mapM_eq_ok_iff]

end Scanning

namespace Token

/-- The text of a token, with the space for a blank. -/
def spelling : Token → String
  | .newline => "\n"
  | .blank => " "
  | .leftParen => "("
  | .rightParen => ")"
  | .number digits => digits
  | .string content => "\"" ++ content ++ "\""
  | .identifier name => name
  | .var => "var"
  | .equal => "="

def isNumber : Token → Bool
  | .number _ => true
  | _ => false

/-- Whether a token can come from a text. -/
def HasSpelling : Token → Prop
  | .number digits => digits ≠ "" ∧ ∀ digit ∈ digits.toList, digit.isDigit
  | .identifier name =>
      name ≠ "" ∧ name ≠ "var" ∧ ∀ letter ∈ name.toList, letter.isAlpha
  | .string content => '"' ∉ content.toList
  | .equal => False
  | .newline | .blank | .leftParen | .rightParen | .var => True

/-- Whether a text spells a token, with any blank character but the line feed
for a blank. -/
def SpelledAs : Token → String → Prop
  | .blank, text =>
      ∃ character, isBlank character ∧ character ≠ '\n' ∧
        text = String.singleton character
  | token, text => text = token.spelling

/-- The lexeme that the spelling of a token is. -/
def lexeme : Token → Lexeme
  | .newline => .sign '\n'
  | .blank => .sign ' '
  | .leftParen => .sign '('
  | .rightParen => .sign ')'
  | .number digits => .number digits.toList
  | .string content => .string content.toList
  | .identifier name => .word name.toList
  | .var => .word "var".toList
  | .equal => .sign '='

theorem toList_spelling (token : Token) :
    token.spelling.toList = token.lexeme.characters := by
  cases token <;> simp [spelling, lexeme, Lexeme.characters]

theorem isWord_lexeme (token : Token) :
    token.lexeme.isWord = token.isName := by
  cases token <;> rfl

theorem isNumber_lexeme (token : Token) :
    token.lexeme.isNumber = token.isNumber := by
  cases token <;> rfl

/-- A token can come from a text if it is the token of its own lexeme. -/
theorem hasSpelling_iff {token : Token} :
    token.HasSpelling ↔
      token.lexeme.Regular ∧ token.lexeme.token = .ok token := by
  cases token with
  | number digits => simp [HasSpelling, lexeme, Lexeme.Regular, Lexeme.token]
  | string content => simp [HasSpelling, lexeme, Lexeme.Regular, Lexeme.token]
  | identifier name =>
      simp [HasSpelling, lexeme, Lexeme.Regular, Lexeme.token, ofWord]
      tauto
  | newline | blank | leftParen | rightParen | equal =>
      simp [HasSpelling, lexeme, Lexeme.Regular, Lexeme.token, isBlank,
        blankRanges, CodePointRange.contains]
  | var => simp [HasSpelling, lexeme, Lexeme.Regular, Lexeme.token, ofWord]

end Token

/-- The lists of tokens that come from a text. -/
structure Canonical (tokens : List Token) : Prop where
  spelled : ∀ token ∈ tokens, token.HasSpelling
  apart : tokens.IsChain fun first second =>
    ¬ (first.isName ∧ second.isName) ∧ ¬ (first.isNumber ∧ second.isNumber)

/-- The spelling of tokens. -/
def unscan (tokens : List Token) : String :=
  String.join (tokens.map Token.spelling)

/-- Whether a text spells tokens. -/
def Spells (source : String) (tokens : List Token) : Prop :=
  ∃ parts : List String, List.Forall₂ Token.SpelledAs tokens parts ∧
    source = String.join parts

/-- The space in the place of any other blank character but the line feed. -/
def spaceBlank (character : Char) : Char :=
  if isBlank character ∧ character ≠ '\n' then ' ' else character

/-- A text with spaces for the blank characters outside its strings. -/
def blanksAsSpaces (source : String) : String :=
  .ofList (editOutsideStrings (fun character => [spaceBlank character]) false
    source.toList)

namespace Lexeme

/-- A lexeme with the space for any other blank character. -/
def spaced : Lexeme → Lexeme
  | .sign character => .sign (spaceBlank character)
  | lexeme => lexeme

@[simp] theorem isWord_spaced (lexeme : Lexeme) :
    lexeme.spaced.isWord = lexeme.isWord := by
  cases lexeme <;> rfl

@[simp] theorem isNumber_spaced (lexeme : Lexeme) :
    lexeme.spaced.isNumber = lexeme.isNumber := by
  cases lexeme <;> rfl

theorem Regular.spaced {lexeme : Lexeme} (regular : lexeme.Regular) :
    lexeme.spaced.Regular := by
  cases lexeme with
  | sign character =>
      simp only [Lexeme.spaced, spaceBlank]
      split
      · simp [Regular]
      · exact regular
  | word | number | string => exact regular

/-- All blank characters but the line feed have the same token. -/
theorem token_spaced (lexeme : Lexeme) :
    lexeme.spaced.token = lexeme.token := by
  cases lexeme with
  | sign character =>
      simp only [spaced, spaceBlank]
      split
      · rename_i blank
        obtain ⟨isBlank, notNewline⟩ := blank
        have solid : character ≠ '(' ∧ character ≠ ')' ∧ character ≠ '"' := by
          refine ⟨?_, ?_, ?_⟩ <;> rintro rfl <;> cases isBlank
        have space : ParenCall.isBlank ' ' := rfl
        simp [token, isBlank, notNewline, solid, space]
      · rfl
  | word | number | string => rfl

theorem lexeme_eq_spaced {lexeme : Lexeme} {token : Token}
    (reads : lexeme.token = .ok token) : token.lexeme = lexeme.spaced := by
  cases lexeme with
  | word letters =>
      cases reads
      unfold Token.ofWord
      split
      · rename_i isVar
        have lettersEq : letters = "var".toList := by
          rw [← isVar, String.toList_ofList]
        rw [lettersEq]
        rfl
      · simp [Token.lexeme, spaced]
  | number | string =>
      cases reads
      simp [Token.lexeme, spaced]
  | sign character =>
      simp only [Lexeme.token] at reads
      simp only [spaced, spaceBlank]
      split at reads
      · cases reads
        simp_all [Token.lexeme]
      split at reads
      · cases reads
        simp_all [Token.lexeme, isBlank, blankRanges, CodePointRange.contains]
      split at reads
      · cases reads
        simp_all [Token.lexeme, isBlank, blankRanges, CodePointRange.contains]
      split at reads
      · cases reads
      split at reads
      · cases reads
        simp_all [Token.lexeme]
      · cases reads

theorem map_spaceBlank {characters : List Char}
    (solid : ∀ character ∈ characters, isBlank character = false) :
    characters.flatMap (fun character => [spaceBlank character]) =
      characters := by
  induction characters with
  | nil => rfl
  | cons character characters induction =>
      have notBlank := solid character (by simp)
      have others :=
        induction fun other member => solid other (by simp [member])
      rw [List.flatMap_cons, others]
      simp [spaceBlank, notBlank]

theorem edited_spaceBlank {lexeme : Lexeme} (regular : lexeme.Regular) :
    lexeme.edited (fun character => [spaceBlank character]) =
      lexeme.spaced.characters := by
  cases lexeme with
  | word letters =>
      exact map_spaceBlank fun letter member =>
        isBlank_eq_false_of_isAlpha (regular.2 letter member)
  | number digits =>
      exact map_spaceBlank fun digit member =>
        isBlank_eq_false_of_isDigit (regular.2 digit member)
  | string content => rfl
  | sign character => rfl

end Lexeme

section Canonical

variable {source : String} {tokens : List Token} {parts : List Lexeme}

theorem toList_unscan (tokens : List Token) :
    (unscan tokens).toList =
      (tokens.map Token.lexeme).flatMap Lexeme.characters := by
  induction tokens with
  | nil => simp [unscan]
  | cons token tokens induction =>
      have joined : unscan (token :: tokens) =
          token.spelling ++ unscan tokens := by
        simp [unscan]
      rw [joined, String.toList_append, induction, Token.toList_spelling]
      rfl

theorem Canonical.regular (canonical : Canonical tokens) :
    ∀ lexeme ∈ tokens.map Token.lexeme, lexeme.Regular := by
  intro lexeme member
  obtain ⟨token, tokenMember, rfl⟩ := List.mem_map.mp member
  exact (Token.hasSpelling_iff.mp (canonical.spelled token tokenMember)).1

theorem canonical_apart_iff :
    (tokens.IsChain fun first second =>
        ¬ (first.isName ∧ second.isName) ∧
          ¬ (first.isNumber ∧ second.isNumber)) ↔
      (tokens.map Token.lexeme).IsChain Lexeme.Apart := by
  rw [List.isChain_map]
  simp only [Lexeme.Apart, Token.isWord_lexeme, Token.isNumber_lexeme]

theorem isChain_map_spaced_iff :
    (parts.map Lexeme.spaced).IsChain Lexeme.Apart ↔
      parts.IsChain Lexeme.Apart := by
  rw [List.isChain_map]
  apply List.IsChain.iff
  intro first second
  simp [Lexeme.Apart]

theorem lexemes_unscan (canonical : Canonical tokens) :
    lexemes (unscan tokens).toList = tokens.map Token.lexeme := by
  rw [toList_unscan]
  exact lexemes_flatMap_characters canonical.regular
    (canonical_apart_iff.mp canonical.apart)

theorem map_spaced_eq_map_lexeme
    (reads : List.Forall₂ (fun part token => part.token = .ok token)
      parts tokens) :
    parts.map Lexeme.spaced = tokens.map Token.lexeme := by
  induction reads with
  | nil => rfl
  | cons first rest induction =>
      rw [List.map_cons, List.map_cons, Lexeme.lexeme_eq_spaced first,
        induction]

theorem forall₂_of_map_spaced
    (spelled : ∀ token ∈ tokens, token.HasSpelling)
    (same : parts.map Lexeme.spaced = tokens.map Token.lexeme) :
    List.Forall₂ (fun part token => part.token = .ok token) parts tokens := by
  induction tokens generalizing parts with
  | nil =>
      rw [List.map_nil, List.map_eq_nil_iff] at same
      rw [same]
      exact .nil
  | cons token tokens induction =>
      obtain ⟨part, others, rfl, first, rest⟩ := List.map_eq_cons_iff.mp same
      have tokenSpelled := spelled token (by simp)
      refine .cons ?_ (induction
        (fun other member => spelled other (by simp [member])) rest)
      rw [← Lexeme.token_spaced, first]
      exact (Token.hasSpelling_iff.mp tokenSpelled).2

theorem exists_mem_of_forall₂ {α β : Type} {related : α → β → Prop}
    {firsts : List α} {seconds : List β}
    (all : List.Forall₂ related firsts seconds) {second : β}
    (member : second ∈ seconds) : ∃ first ∈ firsts, related first second := by
  induction all with
  | nil => cases member
  | cons relates rest induction =>
      rcases List.mem_cons.mp member with rfl | later
      · exact ⟨_, by simp, relates⟩
      · obtain ⟨first, firstMember, found⟩ := induction later
        exact ⟨first, by simp [firstMember], found⟩

/-- The tokens of regular lexemes that are kept apart are canonical. -/
theorem canonical_of_forall₂ (regular : ∀ part ∈ parts, part.Regular)
    (apart : parts.IsChain Lexeme.Apart)
    (reads : List.Forall₂ (fun part token => part.token = .ok token)
      parts tokens) :
    Canonical tokens := by
  have same := map_spaced_eq_map_lexeme reads
  constructor
  · intro token member
    obtain ⟨part, partMember, reads⟩ := exists_mem_of_forall₂ reads member
    rw [Token.hasSpelling_iff, Lexeme.lexeme_eq_spaced reads,
      Lexeme.token_spaced]
    exact ⟨(regular part partMember).spaced, reads⟩
  · rw [canonical_apart_iff, ← same, isChain_map_spaced_iff]
    exact apart

theorem regular_of_scan (scans : scan source = .ok tokens) :
    ∀ lexeme ∈ lexemes source.toList, lexeme.Regular := by
  intro lexeme member
  apply regular_of_mem_lexemes member
  rintro rfl
  have reads := scan_eq_ok_iff_forall₂.mp scans
  obtain ⟨token, -, unclosed⟩ := exists_mem_of_forall₂ reads.flip member
  cases unclosed

theorem toList_blanksAsSpaces
    (regular : ∀ lexeme ∈ lexemes source.toList, lexeme.Regular) :
    (blanksAsSpaces source).toList =
      ((lexemes source.toList).map Lexeme.spaced).flatMap
        Lexeme.characters := by
  have cut := editOutsideStrings_flatMap_characters
    (fun character => [spaceBlank character]) regular
  rw [flatMap_characters_lexemes] at cut
  rw [blanksAsSpaces, String.toList_ofList, cut, List.flatMap_map]
  apply List.flatMap_congr
  intro lexeme member
  exact Lexeme.edited_spaceBlank (regular lexeme member)

theorem count_quote_editOutsideStrings (edit : Char → List Char)
    (noQuote : ∀ character, character ≠ '"' → '"' ∉ edit character)
    (quoted : Bool) (text : List Char) :
    (editOutsideStrings edit quoted text).count '"' = text.count '"' := by
  induction text generalizing quoted with
  | nil => rfl
  | cons character text induction =>
      unfold editOutsideStrings
      split
      · rename_i isQuote
        rw [isQuote, List.count_cons_self, List.count_cons_self, induction]
      · rename_i notQuote
        have edited : (if quoted then [character] else edit character).count
            '"' = 0 := by
          apply List.count_eq_zero.mpr
          split
          · simpa using Ne.symm notQuote
          · exact noQuote character notQuote
        rw [List.count_append, edited, induction,
          List.count_cons_of_ne notQuote]
        omega

theorem quotesPaired_of_unscan (canonical : Canonical tokens)
    (same : unscan tokens = blanksAsSpaces source) :
    QuotesPaired source.toList := by
  have paired := quotesPaired_flatMap_characters canonical.regular
  have noQuote : ∀ character, character ≠ '"' →
      '"' ∉ [spaceBlank character] := by
    intro character notQuote
    unfold spaceBlank
    split <;> simp [Ne.symm notQuote]
  have kept := count_quote_editOutsideStrings _ noQuote false source.toList
  rw [← toList_unscan, same] at paired
  unfold QuotesPaired at *
  rw [blanksAsSpaces, String.toList_ofList, kept] at paired
  exact paired

theorem canonical_of_scan (scans : scan source = .ok tokens) :
    Canonical tokens :=
  canonical_of_forall₂ (regular_of_scan scans) (isChain_lexemes _)
    (scan_eq_ok_iff_forall₂.mp scans)

theorem unscan_of_scan (scans : scan source = .ok tokens) :
    unscan tokens = blanksAsSpaces source := by
  have same := map_spaced_eq_map_lexeme (scan_eq_ok_iff_forall₂.mp scans)
  have spelled := toList_blanksAsSpaces (regular_of_scan scans)
  rw [same, ← toList_unscan] at spelled
  exact String.toList_inj.mp spelled.symm

/-- A text is scanned to canonical tokens if it is spelled like them up to the
choice of blank characters. -/
theorem scan_of_unscan (canonical : Canonical tokens)
    (same : unscan tokens = blanksAsSpaces source) :
    scan source = .ok tokens := by
  have regular :=
    regular_of_quotesPaired (quotesPaired_of_unscan canonical same)
  have spacedRegular : ∀ lexeme ∈ (lexemes source.toList).map Lexeme.spaced,
      lexeme.Regular := by
    intro lexeme member
    obtain ⟨original, originalMember, rfl⟩ := List.mem_map.mp member
    exact (regular original originalMember).spaced
  have cut := lexemes_flatMap_characters spacedRegular
    (isChain_map_spaced_iff.mpr (isChain_lexemes source.toList))
  rw [← toList_blanksAsSpaces regular, ← same, lexemes_unscan canonical] at cut
  exact scan_eq_ok_iff_forall₂.mpr
    (forall₂_of_map_spaced canonical.spelled cut.symm)

theorem Token.SpelledAs.exists_lexeme {token : Token} {text : String}
    (spelledAs : token.SpelledAs text) (spelled : token.HasSpelling) :
    ∃ lexeme : Lexeme, lexeme.Regular ∧ text.toList = lexeme.characters ∧
      lexeme.token = .ok token := by
  obtain ⟨regular, reads⟩ := Token.hasSpelling_iff.mp spelled
  cases token with
  | blank =>
      obtain ⟨character, isBlank, notNewline, rfl⟩ := spelledAs
      have spacedEq : (Lexeme.sign character).spaced = .sign ' ' := by
        simp [Lexeme.spaced, spaceBlank, isBlank, notNewline]
      refine ⟨.sign character, ⟨?_, ?_, ?_⟩, by simp [Lexeme.characters], ?_⟩
      · rintro rfl
        cases isBlank
      · by_contra isDigit
        simp [isBlank_eq_false_of_isDigit (by simpa using isDigit)] at isBlank
      · by_contra isAlpha
        simp [isBlank_eq_false_of_isAlpha (by simpa using isAlpha)] at isBlank
      · rw [← Lexeme.token_spaced, spacedEq]
        rfl
  | _ =>
      cases spelledAs
      exact ⟨_, regular, Token.toList_spelling _, reads⟩

theorem exists_parts_of_spells (canonical : Canonical tokens)
    (spells : Spells source tokens) :
    ∃ parts : List Lexeme, (∀ part ∈ parts, part.Regular) ∧
      source.toList = parts.flatMap Lexeme.characters ∧
        List.Forall₂ (fun part token => part.token = .ok token)
          parts tokens := by
  obtain ⟨texts, spelledAs, rfl⟩ := spells
  have spelled := canonical.spelled
  clear canonical
  induction spelledAs with
  | nil => exact ⟨[], by simp, by simp, .nil⟩
  | @cons token text tokens texts first rest induction =>
      obtain ⟨part, partRegular, textEq, reads⟩ :=
        first.exists_lexeme (spelled token (by simp))
      obtain ⟨parts, partsRegular, textsEq, readsAll⟩ :=
        induction fun other member => spelled other (by simp [member])
      refine ⟨part :: parts, ?_, ?_, .cons reads readsAll⟩
      · simpa [partRegular] using partsRegular
      · rw [String.join_cons, String.toList_append, textEq, textsEq,
          List.flatMap_cons]

theorem scan_of_spells (canonical : Canonical tokens)
    (spells : Spells source tokens) : scan source = .ok tokens := by
  obtain ⟨parts, regular, sourceEq, reads⟩ :=
    exists_parts_of_spells canonical spells
  have apart : parts.IsChain Lexeme.Apart := by
    rw [← isChain_map_spaced_iff, map_spaced_eq_map_lexeme reads,
      ← canonical_apart_iff]
    exact canonical.apart
  rw [scan_eq_ok_iff_forall₂, sourceEq,
    lexemes_flatMap_characters regular apart]
  exact reads

theorem Lexeme.spelledAs_of_token {lexeme : Lexeme} {token : Token}
    (reads : lexeme.token = .ok token) :
    token.SpelledAs (.ofList lexeme.characters) := by
  cases lexeme with
  | word letters =>
      cases reads
      unfold Token.ofWord
      split
      · rename_i isVar
        exact isVar
      · rfl
  | number digits =>
      cases reads
      rfl
  | string content =>
      cases reads
      apply String.toList_inj.mp
      rw [Token.toList_spelling]
      simp [Token.lexeme]
  | sign character =>
      simp only [Lexeme.token] at reads
      split at reads
      · cases reads
        subst character
        rfl
      split at reads
      · cases reads
        subst character
        rfl
      split at reads
      · cases reads
        subst character
        rfl
      split at reads
      · cases reads
      split at reads
      · cases reads
        exact ⟨character, by assumption, by assumption, rfl⟩
      · cases reads

theorem spells_of_scan (scans : scan source = .ok tokens) :
    Spells source tokens := by
  have reads := scan_eq_ok_iff_forall₂.mp scans
  refine ⟨(lexemes source.toList).map (.ofList ·.characters), ?_, ?_⟩
  · rw [List.forall₂_map_right_iff]
    exact reads.flip.imp fun _ _ => Lexeme.spelledAs_of_token
  · apply String.toList_inj.mp
    rw [String.toList_join]
    simp [List.flatMap_map, flatMap_characters_lexemes]

end Canonical

/-- Scanning is exact.  A text has the tokens that are canonical and whose
spelling is the text with spaces for its blank characters; this is so exactly
if the text spells these tokens with any blank characters; and tokens come back
from their spelling exactly if they are canonical. -/
theorem scan_eq_ok_iff_canonical (source : String) (tokens : List Token) :
    (scan source = .ok tokens ↔
        Canonical tokens ∧ unscan tokens = blanksAsSpaces source) ∧
      (scan source = .ok tokens ↔
        Canonical tokens ∧ Spells source tokens) ∧
      (scan (unscan tokens) = .ok tokens ↔ Canonical tokens) := by
  refine ⟨⟨?_, ?_⟩, ⟨?_, ?_⟩, ?_, ?_⟩
  · intro scans
    exact ⟨canonical_of_scan scans, unscan_of_scan scans⟩
  · rintro ⟨canonical, same⟩
    exact scan_of_unscan canonical same
  · intro scans
    exact ⟨canonical_of_scan scans, spells_of_scan scans⟩
  · rintro ⟨canonical, spells⟩
    exact scan_of_spells canonical spells
  · exact canonical_of_scan
  · intro canonical
    rw [scan_eq_ok_iff_forall₂, lexemes_unscan canonical,
      List.forall₂_map_left_iff, List.forall₂_same]
    intro token member
    exact (Token.hasSpelling_iff.mp (canonical.spelled token member)).2

end ParenCall
