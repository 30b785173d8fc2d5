import Mathlib

/-!
# Lexemes of a text

Every text, a source as well as an output, falls into lexemes: words of
letters, numbers of digits, quoted strings and single signs, each as long as
possible.  A quote that is never closed is a sign of its own.

A list of lexemes in which no two words and no two numbers are neighbours is
found again in the text that it spells, so such lists and the texts whose
quotes are paired determine each other.  Editing a text outside its strings
edits its lexemes one by one.
-/

namespace ParenCall

/-- A part of a text that cannot be divided. -/
inductive Lexeme
  | word (letters : List Char)
  | number (digits : List Char)
  | string (content : List Char)
  | sign (character : Char)
  deriving DecidableEq

namespace Lexeme

/-- The characters that spell a lexeme. -/
def characters : Lexeme → List Char
  | .word letters => letters
  | .number digits => digits
  | .string content => '"' :: (content ++ ['"'])
  | .sign character => [character]

/-- Whether a lexeme has the characters of its kind. -/
def Regular : Lexeme → Prop
  | .word letters => letters ≠ [] ∧ ∀ letter ∈ letters, letter.isAlpha
  | .number digits => digits ≠ [] ∧ ∀ digit ∈ digits, digit.isDigit
  | .string content => '"' ∉ content
  | .sign character =>
      character ≠ '"' ∧ character.isDigit = false ∧ character.isAlpha = false

def isWord : Lexeme → Bool
  | .word _ => true
  | _ => false

def isNumber : Lexeme → Bool
  | .number _ => true
  | _ => false

/-- Whether two neighbours stay two lexemes. -/
def Apart (first second : Lexeme) : Prop :=
  ¬ (first.isWord ∧ second.isWord) ∧ ¬ (first.isNumber ∧ second.isNumber)

/-- Whether a lexeme goes on with a character. -/
def goesOn : Lexeme → Char → Bool
  | .word _, next => next.isAlpha
  | .number _, next => next.isDigit
  | .string _, _ | .sign _, _ => false

/-- Whether a lexeme cannot go on into the characters after it. -/
def EndsBefore (lexeme : Lexeme) (rest : List Char) : Prop :=
  ∀ next ∈ rest.head?, lexeme.goesOn next = false

end Lexeme

/-- The longest lexeme that begins with a character, and what follows it. -/
def firstLexeme (character : Char) (rest : List Char) : Lexeme × List Char :=
  if character = '"' then
    match rest.dropWhile (· ≠ '"') with
    | [] => (.sign character, rest)
    | _ :: following => (.string (rest.takeWhile (· ≠ '"')), following)
  else if character.isDigit then
    (.number (character :: rest.takeWhile Char.isDigit),
      rest.dropWhile Char.isDigit)
  else if character.isAlpha then
    (.word (character :: rest.takeWhile Char.isAlpha),
      rest.dropWhile Char.isAlpha)
  else
    (.sign character, rest)

theorem isDigit_eq_false_of_isAlpha {character : Char}
    (isAlpha : character.isAlpha) : character.isDigit = false := by
  simp only [Char.isAlpha, Char.isUpper, Char.isLower, Char.isDigit,
    UInt32.le_iff_toNat_le] at *
  simp at *
  omega

theorem isAlpha_eq_false_of_isDigit {character : Char}
    (isDigit : character.isDigit) : character.isAlpha = false := by
  by_contra isAlpha
  simp [isDigit_eq_false_of_isAlpha (by simpa using isAlpha)] at isDigit

theorem ne_quote_of_isAlpha {character : Char} (isAlpha : character.isAlpha) :
    character ≠ '"' := by
  rintro rfl
  simp [Char.isAlpha, Char.isUpper, Char.isLower] at isAlpha

theorem ne_quote_of_isDigit {character : Char} (isDigit : character.isDigit) :
    character ≠ '"' := by
  rintro rfl
  simp [Char.isDigit] at isDigit

/-- The first lexeme and what follows it spell the text again. -/
theorem characters_append_firstLexeme (character : Char) (rest : List Char) :
    (firstLexeme character rest).1.characters ++
        (firstLexeme character rest).2 =
      character :: rest := by
  unfold firstLexeme
  split
  · rename_i isQuote
    split
    · rfl
    · rename_i closing following closed
      have isClosing : closing = '"' := by
        have stops := List.head?_dropWhile_not (· ≠ '"') rest
        rw [closed] at stops
        simpa using stops
      have whole := List.takeWhile_append_dropWhile (l := rest)
        (p := (· ≠ '"'))
      rw [closed, isClosing] at whole
      rw [isQuote]
      simpa [Lexeme.characters] using whole
  split
  · simp [Lexeme.characters]
  split
  · simp [Lexeme.characters]
  · rfl

theorem length_firstLexeme_lt (character : Char) (rest : List Char) :
    (firstLexeme character rest).2.length < (character :: rest).length := by
  have spelled : (firstLexeme character rest).1.characters ≠ [] := by
    unfold firstLexeme
    repeat' split
    all_goals simp [Lexeme.characters]
  have positive := List.length_pos_of_ne_nil spelled
  have whole :=
    congrArg List.length (characters_append_firstLexeme character rest)
  rw [List.length_append] at whole
  omega

/-- The lexemes of a text. -/
def lexemes (text : List Char) : List Lexeme :=
  match text with
  | [] => []
  | character :: rest =>
      (firstLexeme character rest).1 :: lexemes (firstLexeme character rest).2
termination_by text.length
decreasing_by exact length_firstLexeme_lt character rest

@[simp] theorem lexemes_nil : lexemes [] = [] := by
  rw [lexemes]

theorem lexemes_cons (character : Char) (rest : List Char) :
    lexemes (character :: rest) =
      (firstLexeme character rest).1 ::
        lexemes (firstLexeme character rest).2 := by
  rw [lexemes]

/-- No character of a text is lost, changed or repeated. -/
theorem flatMap_characters_lexemes (text : List Char) :
    (lexemes text).flatMap Lexeme.characters = text := by
  induction text using lexemes.induct with
  | case1 => simp
  | case2 character rest induction =>
      rw [lexemes_cons, List.flatMap_cons, induction,
        characters_append_firstLexeme]

section Spelling

theorem takeWhile_eq_nil_of_head? {accepts : Char → Bool} {rest : List Char}
    (stops : ∀ next ∈ rest.head?, accepts next = false) :
    rest.takeWhile accepts = [] ∧ rest.dropWhile accepts = rest := by
  cases rest with
  | nil => simp
  | cons next rest => simp [stops next (by simp)]

theorem firstLexeme_word {letter : Char} {letters rest : List Char}
    (alphabetic : ∀ other ∈ letter :: letters, other.isAlpha)
    (stops : ∀ next ∈ rest.head?, next.isAlpha = false) :
    firstLexeme letter (letters ++ rest) = (.word (letter :: letters), rest) := by
  have isAlpha : letter.isAlpha := alphabetic letter (by simp)
  have others : ∀ other ∈ letters, other.isAlpha :=
    fun other member => alphabetic other (by simp [member])
  obtain ⟨taken, dropped⟩ := takeWhile_eq_nil_of_head? stops
  simp [firstLexeme, ne_quote_of_isAlpha isAlpha, isAlpha,
    isDigit_eq_false_of_isAlpha isAlpha, List.takeWhile_append_of_pos others,
    List.dropWhile_append_of_pos others, taken, dropped]

theorem firstLexeme_number {digit : Char} {digits rest : List Char}
    (numeric : ∀ other ∈ digit :: digits, other.isDigit)
    (stops : ∀ next ∈ rest.head?, next.isDigit = false) :
    firstLexeme digit (digits ++ rest) = (.number (digit :: digits), rest) := by
  have isDigit : digit.isDigit := numeric digit (by simp)
  have others : ∀ other ∈ digits, other.isDigit :=
    fun other member => numeric other (by simp [member])
  obtain ⟨taken, dropped⟩ := takeWhile_eq_nil_of_head? stops
  simp [firstLexeme, ne_quote_of_isDigit isDigit, isDigit,
    List.takeWhile_append_of_pos others, List.dropWhile_append_of_pos others,
    taken, dropped]

theorem firstLexeme_string {content : List Char} (noQuote : '"' ∉ content)
    (rest : List Char) :
    firstLexeme '"' (content ++ '"' :: rest) = (.string content, rest) := by
  have unquoted : ∀ other ∈ content, (!decide (other = '"')) = true := by
    intro other member
    have differs : other ≠ '"' := fun same => noQuote (same ▸ member)
    simpa using differs
  simp [firstLexeme, List.takeWhile_append_of_pos unquoted,
    List.dropWhile_append_of_pos unquoted]

/-- A lexeme that ends before the rest of a text is its first lexeme. -/
theorem lexemes_characters_append {lexeme : Lexeme} (regular : lexeme.Regular)
    {rest : List Char} (ends : lexeme.EndsBefore rest) :
    lexemes (lexeme.characters ++ rest) = lexeme :: lexemes rest := by
  cases lexeme with
  | word letters =>
      obtain ⟨nonempty, alphabetic⟩ := regular
      cases letters with
      | nil => exact absurd rfl nonempty
      | cons letter letters =>
          rw [Lexeme.characters, List.cons_append, lexemes_cons,
            firstLexeme_word alphabetic ends]
  | number digits =>
      obtain ⟨nonempty, numeric⟩ := regular
      cases digits with
      | nil => exact absurd rfl nonempty
      | cons digit digits =>
          rw [Lexeme.characters, List.cons_append, lexemes_cons,
            firstLexeme_number numeric ends]
  | string content =>
      rw [Lexeme.characters, List.cons_append, List.append_assoc,
        List.singleton_append, lexemes_cons, firstLexeme_string regular]
  | sign character =>
      obtain ⟨notQuote, notDigit, notAlpha⟩ := regular
      rw [Lexeme.characters, List.singleton_append, lexemes_cons]
      simp [firstLexeme, notQuote, notDigit, notAlpha]

theorem Lexeme.Regular.characters_ne_nil {lexeme : Lexeme}
    (regular : lexeme.Regular) : lexeme.characters ≠ [] := by
  cases lexeme with
  | word | number => exact regular.1
  | string | sign => simp [Lexeme.characters]

theorem Lexeme.goesOn_eq_false_of_apart {lexeme next : Lexeme}
    (apart : lexeme.Apart next) (regular : next.Regular) {character : Char}
    (isHead : character ∈ next.characters.head?) :
    lexeme.goesOn character = false := by
  cases next with
  | word letters =>
      have isAlpha := regular.2 character (List.mem_of_mem_head? isHead)
      cases lexeme with
      | word => exact absurd ⟨rfl, rfl⟩ apart.1
      | number => exact isDigit_eq_false_of_isAlpha isAlpha
      | string | sign => rfl
  | number digits =>
      have isDigit := regular.2 character (List.mem_of_mem_head? isHead)
      cases lexeme with
      | word => exact isAlpha_eq_false_of_isDigit isDigit
      | number => exact absurd ⟨rfl, rfl⟩ apart.2
      | string | sign => rfl
  | string content =>
      cases isHead
      cases lexeme <;> rfl
  | sign sign =>
      cases isHead
      cases lexeme with
      | word => exact regular.2.2
      | number => exact regular.2.1
      | string | sign => rfl

theorem Lexeme.endsBefore_flatMap {lexeme : Lexeme} {following : List Lexeme}
    (apart : ∀ next ∈ following.head?, lexeme.Apart next)
    (regular : ∀ next ∈ following, next.Regular) :
    lexeme.EndsBefore (following.flatMap Lexeme.characters) := by
  intro character isHead
  cases following with
  | nil => cases isHead
  | cons next following =>
      have nextRegular : next.Regular := regular next (by simp)
      rw [List.flatMap_cons,
        List.head?_append_of_ne_nil _ nextRegular.characters_ne_nil] at isHead
      exact goesOn_eq_false_of_apart (apart next (by simp)) nextRegular isHead

/-- Lexemes that are kept apart are found again in the text they spell. -/
theorem lexemes_flatMap_characters {parts : List Lexeme}
    (regular : ∀ part ∈ parts, part.Regular)
    (apart : parts.IsChain Lexeme.Apart) :
    lexemes (parts.flatMap Lexeme.characters) = parts := by
  induction parts with
  | nil => simp
  | cons part parts induction =>
      rw [List.isChain_cons] at apart
      have tailRegular : ∀ other ∈ parts, other.Regular :=
        fun other member => regular other (by simp [member])
      have ends := Lexeme.endsBefore_flatMap apart.1 tailRegular
      rw [List.flatMap_cons,
        lexemes_characters_append (regular part (by simp)) ends,
        induction tailRegular apart.2]

end Spelling

section Cutting

theorem isHead_lexemes {text : List Char} {lexeme : Lexeme}
    (isHead : lexeme ∈ (lexemes text).head?) :
    ∃ character rest, text = character :: rest ∧
      lexeme = (firstLexeme character rest).1 := by
  cases text with
  | nil => simp at isHead
  | cons character rest =>
      rw [lexemes_cons] at isHead
      cases isHead
      exact ⟨character, rest, rfl, rfl⟩

theorem isAlpha_of_isWord {character : Char} {rest : List Char}
    (isWord : (firstLexeme character rest).1.isWord) : character.isAlpha := by
  unfold firstLexeme at isWord
  split at isWord
  · split at isWord <;> cases isWord
  split at isWord
  · cases isWord
  split at isWord
  · assumption
  · cases isWord

theorem isDigit_of_isNumber {character : Char} {rest : List Char}
    (isNumber : (firstLexeme character rest).1.isNumber) :
    character.isDigit := by
  unfold firstLexeme at isNumber
  split at isNumber
  · split at isNumber <;> cases isNumber
  split at isNumber
  · assumption
  split at isNumber
  · cases isNumber
  · cases isNumber

theorem head?_dropWhile_eq_false {accepts : Char → Bool} {rest : List Char}
    {next : Char} (isHead : next ∈ (rest.dropWhile accepts).head?) :
    accepts next = false := by
  have stops := List.head?_dropWhile_not accepts rest
  rw [Option.mem_def.mp isHead] at stops
  exact stops

/-- The first lexeme is as long as possible. -/
theorem endsBefore_firstLexeme (character : Char) (rest : List Char) :
    (firstLexeme character rest).1.EndsBefore
      (firstLexeme character rest).2 := by
  unfold firstLexeme
  split
  · split <;> exact fun _ _ => rfl
  split
  · exact fun next => head?_dropWhile_eq_false
  split
  · exact fun next => head?_dropWhile_eq_false
  · exact fun _ _ => rfl

theorem isChain_lexemes (text : List Char) :
    (lexemes text).IsChain Lexeme.Apart := by
  induction text using lexemes.induct with
  | case1 => simp
  | case2 character rest induction =>
      rw [lexemes_cons, List.isChain_cons]
      refine ⟨?_, induction⟩
      intro next isHead
      have ends := endsBefore_firstLexeme character rest
      obtain ⟨following, others, textEq, rfl⟩ := isHead_lexemes isHead
      rw [textEq] at ends
      have stops := ends following rfl
      constructor
      · rintro ⟨firstWord, secondWord⟩
        have goesOn := isAlpha_of_isWord secondWord
        cases first : (firstLexeme character rest).1 <;>
          simp_all [Lexeme.goesOn, Lexeme.isWord]
      · rintro ⟨firstNumber, secondNumber⟩
        have goesOn := isDigit_of_isNumber secondNumber
        cases first : (firstLexeme character rest).1 <;>
          simp_all [Lexeme.goesOn, Lexeme.isNumber]

end Cutting

section Quotes

/-- Whether every opening quote of a text is closed. -/
def QuotesPaired (text : List Char) : Prop :=
  text.count '"' % 2 = 0

theorem quote_notMem_word {letters : List Char}
    (regular : (Lexeme.word letters).Regular) : '"' ∉ letters := by
  intro member
  exact ne_quote_of_isAlpha (regular.2 _ member) rfl

theorem quote_notMem_number {digits : List Char}
    (regular : (Lexeme.number digits).Regular) : '"' ∉ digits := by
  intro member
  exact ne_quote_of_isDigit (regular.2 _ member) rfl

theorem Lexeme.Regular.quotesPaired {lexeme : Lexeme}
    (regular : lexeme.Regular) : QuotesPaired lexeme.characters := by
  cases lexeme with
  | word letters =>
      have none := List.count_eq_zero.mpr (quote_notMem_word regular)
      simp [QuotesPaired, characters, none]
  | number digits =>
      have none := List.count_eq_zero.mpr (quote_notMem_number regular)
      simp [QuotesPaired, characters, none]
  | string content =>
      have none := List.count_eq_zero.mpr regular
      simp [QuotesPaired, characters, none]
  | sign character =>
      simp [QuotesPaired, characters, regular.1]

theorem quotesPaired_flatMap_characters {parts : List Lexeme}
    (regular : ∀ part ∈ parts, part.Regular) :
    QuotesPaired (parts.flatMap Lexeme.characters) := by
  induction parts with
  | nil => rfl
  | cons part parts induction =>
      have head := (regular part (by simp)).quotesPaired
      have tail := induction fun other member => regular other (by simp [member])
      unfold QuotesPaired at *
      rw [List.flatMap_cons, List.count_append]
      omega

theorem regular_firstLexeme (character : Char) (rest : List Char) :
    (firstLexeme character rest).1.Regular ∨
      (firstLexeme character rest).1 = .sign '"' ∧ character = '"' ∧
        '"' ∉ rest := by
  unfold firstLexeme
  split
  · rename_i isQuote
    split
    · rename_i unclosed
      right
      refine ⟨by rw [isQuote], isQuote, ?_⟩
      intro member
      have other := List.dropWhile_eq_nil_iff.mp unclosed _ member
      simp at other
    · left
      intro member
      have other := List.mem_takeWhile_imp member
      simp at other
  rename_i notQuote
  left
  split
  · rename_i isDigit
    refine ⟨by simp, ?_⟩
    intro digit member
    rcases List.mem_cons.mp member with rfl | taken
    · exact isDigit
    · exact List.mem_takeWhile_imp taken
  rename_i notDigit
  split
  · rename_i isAlpha
    refine ⟨by simp, ?_⟩
    intro letter member
    rcases List.mem_cons.mp member with rfl | taken
    · exact isAlpha
    · exact List.mem_takeWhile_imp taken
  · rename_i notAlpha
    exact ⟨notQuote, by simpa using notDigit, by simpa using notAlpha⟩

theorem regular_of_mem_lexemes {text : List Char} {lexeme : Lexeme}
    (member : lexeme ∈ lexemes text) (closed : lexeme ≠ .sign '"') :
    lexeme.Regular := by
  induction text using lexemes.induct with
  | case1 => simp at member
  | case2 character rest induction =>
      rw [lexemes_cons] at member
      rcases List.mem_cons.mp member with rfl | later
      · rcases regular_firstLexeme character rest with
          regular | ⟨unclosed, -, -⟩
        · exact regular
        · exact absurd unclosed closed
      · exact induction later

/-- A text whose quotes are paired has no lexemes but those with the characters
of their kind. -/
theorem regular_of_quotesPaired {text : List Char} (paired : QuotesPaired text) :
    ∀ lexeme ∈ lexemes text, lexeme.Regular := by
  induction text using lexemes.induct with
  | case1 => simp
  | case2 character rest induction =>
      rcases regular_firstLexeme character rest with
        regular | ⟨-, isQuote, noQuote⟩
      · have first := regular.quotesPaired
        rw [← characters_append_firstLexeme] at paired
        have following : QuotesPaired (firstLexeme character rest).2 := by
          unfold QuotesPaired at *
          rw [List.count_append] at paired
          omega
        rw [lexemes_cons]
        simpa [regular] using induction following
      · have none : rest.count '"' = 0 := List.count_eq_zero.mpr noQuote
        simp [QuotesPaired, isQuote, none] at paired

/-- Replaces each character of a text that stands in no string.  `quoted` holds
inside a string. -/
def editOutsideStrings (edit : Char → List Char) :
    Bool → List Char → List Char
  | _, [] => []
  | quoted, character :: rest =>
      if character = '"' then
        '"' :: editOutsideStrings edit (!quoted) rest
      else
        (if quoted then [character] else edit character) ++
          editOutsideStrings edit quoted rest

variable (edit : Char → List Char)

/-- What an edit outside strings makes of a lexeme. -/
def Lexeme.edited : Lexeme → List Char
  | .string content => Lexeme.characters (.string content)
  | lexeme => lexeme.characters.flatMap edit

theorem editOutsideStrings_append {quoted : Bool} {first : List Char}
    (noQuote : '"' ∉ first) (rest : List Char) :
    editOutsideStrings edit quoted (first ++ rest) =
      (if quoted then first else first.flatMap edit) ++
        editOutsideStrings edit quoted rest := by
  induction first with
  | nil => cases quoted <;> rfl
  | cons character first induction =>
      simp only [List.mem_cons, not_or] at noQuote
      rw [List.cons_append, editOutsideStrings, if_neg (Ne.symm noQuote.1),
        induction noQuote.2]
      cases quoted <;> simp

theorem editOutsideStrings_characters_append {lexeme : Lexeme}
    (regular : lexeme.Regular) (rest : List Char) :
    editOutsideStrings edit false (lexeme.characters ++ rest) =
      lexeme.edited edit ++ editOutsideStrings edit false rest := by
  cases lexeme with
  | word letters =>
      exact editOutsideStrings_append edit (quote_notMem_word regular) rest
  | number digits =>
      exact editOutsideStrings_append edit (quote_notMem_number regular) rest
  | string content =>
      have closes := @editOutsideStrings_append edit true content regular
        ('"' :: rest)
      simp only [Lexeme.edited, Lexeme.characters, List.cons_append,
        List.append_assoc, List.nil_append, editOutsideStrings, if_true,
        Bool.not_false, Bool.not_true] at closes ⊢
      rw [closes]
  | sign character =>
      apply editOutsideStrings_append
      simpa [Lexeme.characters] using Ne.symm regular.1

/-- An edit outside strings acts on each lexeme apart. -/
theorem editOutsideStrings_flatMap_characters {parts : List Lexeme}
    (regular : ∀ part ∈ parts, part.Regular) :
    editOutsideStrings edit false (parts.flatMap Lexeme.characters) =
      parts.flatMap (Lexeme.edited edit) := by
  induction parts with
  | nil => rfl
  | cons part parts induction =>
      rw [List.flatMap_cons, List.flatMap_cons,
        editOutsideStrings_characters_append edit (regular part (by simp)),
        induction fun other member => regular other (by simp [member])]

end Quotes

end ParenCall
