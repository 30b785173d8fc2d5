import Mathlib.Data.String.Basic
import ParenCall.TokenScanning

/-!
# Scanning as lexing of characters

The scanner cuts lexemes out of its source text at byte offsets.  As long as
the offsets count the bytes of the characters read so far, the lexeme between
them consists of exactly the characters read for it.  Every step of the scanner
keeps the offsets right, so scanning a text gives the tokens that its list of
characters is lexed into, and leaves the same characters after a failure.
-/

namespace ParenCall

/-- Reads what follows an opening quote.  Gives the token and the characters
after the closing quote, or nothing of them if there is none. -/
def lexString (rest : List Char) : Except ScanError Token × List Char :=
  match rest.dropWhile (· ≠ '"') with
  | [] => (.error .unterminatedString, [])
  | _ :: following =>
      (.ok (.string (.ofList (rest.takeWhile (· ≠ '"')))), following)

/-- Reads the lexeme that begins with a character.  Gives the token and the
characters after it, also after a failure. -/
def lexToken (character : Char) (rest : List Char) :
    Except ScanError Token × List Char :=
  if character = '\n' then
    (.ok .newline, rest)
  else if character = '(' then
    (.ok .leftParen, rest)
  else if character = ')' then
    (.ok .rightParen, rest)
  else if character = '"' then
    lexString rest
  else if isBlank character then
    (.ok .blank, rest)
  else if character.isDigit then
    (.ok (.number (.ofList (character :: rest.takeWhile Char.isDigit))),
      rest.dropWhile Char.isDigit)
  else if character.isAlpha then
    (.ok (.ofWord (.ofList (character :: rest.takeWhile Char.isAlpha))),
      rest.dropWhile Char.isAlpha)
  else
    (.error (.unexpectedCharacter character), rest)

theorem lexString_suffix (rest : List Char) : (lexString rest).2 <:+ rest := by
  have dropped : rest.dropWhile (· ≠ '"') <:+ rest := List.dropWhile_suffix _
  unfold lexString
  split
  · exact List.nil_suffix
  · rename_i remains
    rw [remains] at dropped
    exact (List.suffix_cons _ _).trans dropped

theorem lexToken_suffix (character : Char) (rest : List Char) :
    (lexToken character rest).2 <:+ rest := by
  unfold lexToken
  repeat' split
  all_goals
    simp only [List.suffix_rfl, List.dropWhile_suffix, lexString_suffix]

/-- The tokens of characters, or the first failure, with the characters after
it. -/
def lexAll (characters : List Char) :
    Except ScanError (List Token) × List Char :=
  match characters with
  | [] => (.ok [], [])
  | character :: rest =>
      match _ : lexToken character rest with
      | (.error error, following) => (.error error, following)
      | (.ok token, following) =>
          ((lexAll following).1.map (token :: ·), (lexAll following).2)
termination_by characters.length
decreasing_by
  all_goals
    rename_i lexes
    have bound := (lexToken_suffix character rest).length_le
    rw [lexes] at bound
    exact Nat.lt_succ_of_le bound

theorem lexAll_nil : lexAll [] = (.ok [], []) := by
  rw [lexAll]

theorem lexAll_cons_of_ok {character : Char} {rest following : List Char}
    {token : Token} (lexes : lexToken character rest = (.ok token, following)) :
    lexAll (character :: rest) =
      ((lexAll following).1.map (token :: ·), (lexAll following).2) := by
  rw [lexAll]
  split <;> simp_all

theorem lexAll_cons_of_error {character : Char} {rest following : List Char}
    {error : ScanError}
    (fails : lexToken character rest = (.error error, following)) :
    lexAll (character :: rest) = (.error error, following) := by
  rw [lexAll]
  split <;> simp_all

namespace Scanner

open String (utf8Len)

/-- A scanner that has passed some characters and then read a lexeme.  Its
offsets count the bytes of these characters. -/
structure Stands (scanner : Scanner) (passed lexeme : List Char) : Prop where
  source_eq :
    scanner.source = String.ofList (passed ++ lexeme ++ scanner.remaining)
  start_eq : scanner.start = ⟨utf8Len passed⟩
  cursor_eq : scanner.cursor = ⟨utf8Len passed + utf8Len lexeme⟩

theorem stands_ofSource (source : String) :
    (ofSource source).Stands [] [] where
  source_eq := by simp [ofSource]
  start_eq := rfl
  cursor_eq := rfl

theorem Stands.lexeme_eq {scanner : Scanner} {passed lexeme : List Char}
    (stands : scanner.Stands passed lexeme) :
    scanner.lexeme = String.ofList lexeme := by
  rw [Scanner.lexeme, stands.source_eq, stands.start_eq, stands.cursor_eq]
  exact String.extract_of_valid passed lexeme scanner.remaining

theorem foldl_add_utf8Len (characters : List Char) (bytes : Nat) :
    characters.foldl (· + ·) (⟨bytes⟩ : String.Pos.Raw) =
      ⟨bytes + utf8Len characters⟩ := by
  induction characters generalizing bytes with
  | nil => rfl
  | cons character characters induction =>
      rw [List.foldl_cons]
      have step : (⟨bytes⟩ : String.Pos.Raw) + character =
          ⟨bytes + character.utf8Size⟩ := rfl
      rw [step, induction, String.utf8Len_cons]
      congr 1
      omega

/-- The scanner past the first remaining character, still in the same lexeme. -/
def advance (scanner : Scanner) (character : Char) (rest : List Char) :
    Scanner :=
  { scanner with
    cursor := scanner.cursor + character
    remaining := rest }

theorem Stands.advance {scanner : Scanner} {passed lexeme : List Char}
    (stands : scanner.Stands passed lexeme) {character : Char}
    {rest : List Char} (remains : scanner.remaining = character :: rest) :
    (scanner.advance character rest).Stands passed
      (lexeme ++ [character]) where
  source_eq := by simp [Scanner.advance, stands.source_eq, remains]
  start_eq := stands.start_eq
  cursor_eq := by
    simp only [Scanner.advance, stands.cursor_eq, String.utf8Len_append,
      String.utf8Len_cons, String.utf8Len_nil, Nat.zero_add, ← Nat.add_assoc]
    rfl

/-- A lexeme that starts at the cursor has no characters yet. -/
theorem Stands.startAtCursor {scanner : Scanner} {passed lexeme : List Char}
    (stands : scanner.Stands passed lexeme) :
    { scanner with start := scanner.cursor }.Stands (passed ++ lexeme) [] where
  source_eq := by simp [stands.source_eq]
  start_eq := by simp [stands.cursor_eq]
  cursor_eq := by simp [stands.cursor_eq]

theorem Stands.begin {scanner : Scanner} {passed lexeme : List Char}
    (stands : scanner.Stands passed lexeme) {character : Char}
    {rest : List Char} (remains : scanner.remaining = character :: rest) :
    (scanner.begin character rest).Stands (passed ++ lexeme) [character] :=
  stands.startAtCursor.advance remains

theorem Stands.skipWhile {scanner : Scanner} {passed lexeme : List Char}
    (stands : scanner.Stands passed lexeme) (accepts : Char → Bool) :
    (scanner.skipWhile accepts).Stands passed
      (lexeme ++ scanner.remaining.takeWhile accepts) where
  source_eq := by
    simp [Scanner.skipWhile, stands.source_eq]
  start_eq := stands.start_eq
  cursor_eq := by
    rw [Scanner.skipWhile, stands.cursor_eq, foldl_add_utf8Len,
      String.utf8Len_append, Nat.add_assoc]

theorem Stands.stringContent {scanner : Scanner} {passed lexeme : List Char}
    (stands : scanner.Stands passed lexeme) :
    scanner.stringContent.Stands (passed ++ lexeme)
      (scanner.remaining.takeWhile (· ≠ '"')) :=
  stands.startAtCursor.skipWhile (· ≠ '"')

/-- A step of the scanner and the lexeme that a list of characters begins with
agree: on the answer, on the remaining characters, and the offsets stay
right. -/
def Agrees (stepped : Except ScanError Token × Scanner)
    (lexed : Except ScanError Token × List Char) : Prop :=
  stepped.1 = lexed.1 ∧ stepped.2.remaining = lexed.2 ∧
    ∃ passed lexeme, stepped.2.Stands passed lexeme

theorem Stands.string {scanner : Scanner} {passed lexeme : List Char}
    (stands : scanner.Stands passed lexeme) :
    Agrees scanner.string (lexString scanner.remaining) := by
  have content := stands.stringContent
  have remains : scanner.stringContent.remaining =
      scanner.remaining.dropWhile (· ≠ '"') := rfl
  cases closed : scanner.stringContent.remaining with
  | nil =>
      have stepped : scanner.string =
          (.error .unterminatedString, scanner.stringContent) := by
        rw [Scanner.string, closed]
      have lexed : lexString scanner.remaining =
          (.error .unterminatedString, []) := by
        rw [lexString, ← remains, closed]
      rw [stepped, lexed]
      exact ⟨rfl, closed, _, _, content⟩
  | cons closing following =>
      have stepped : scanner.string =
          (.ok (.string scanner.stringContent.lexeme),
            { scanner.stringContent with
              cursor := scanner.stringContent.cursor + closing
              remaining := following }) := by
        rw [Scanner.string, closed]
      have lexed : lexString scanner.remaining =
          (.ok (.string (.ofList (scanner.remaining.takeWhile (· ≠ '"')))),
            following) := by
        rw [lexString, ← remains, closed]
      rw [stepped, lexed, content.lexeme_eq]
      exact ⟨rfl, rfl, _, _, content.advance closed⟩

theorem Stands.token {scanner : Scanner} {passed : List Char}
    {character : Char} (stands : scanner.Stands passed [character]) :
    Agrees (scanner.token character)
      (lexToken character scanner.remaining) := by
  unfold Scanner.token lexToken
  split
  · exact ⟨rfl, rfl, _, _, stands⟩
  split
  · exact ⟨rfl, rfl, _, _, stands⟩
  split
  · exact ⟨rfl, rfl, _, _, stands⟩
  split
  · exact stands.string
  split
  · exact ⟨rfl, rfl, _, _, stands⟩
  split
  · have digits := stands.skipWhile Char.isDigit
    exact ⟨by simp [digits.lexeme_eq], rfl, _, _, digits⟩
  split
  · have word := stands.skipWhile Char.isAlpha
    exact ⟨by simp [word.lexeme_eq], rfl, _, _, word⟩
  · exact ⟨rfl, rfl, _, _, stands⟩

theorem collect_of_nil {scanner : Scanner} (empty : scanner.remaining = [])
    (found : Array Token) :
    scanner.collect found = (.ok found.toList, scanner) := by
  rw [collect]
  split <;> simp_all

theorem collect_of_error {scanner next : Scanner} {character : Char}
    {rest : List Char} {error : ScanError}
    (remains : scanner.remaining = character :: rest)
    (fails : (scanner.begin character rest).token character =
      (.error error, next)) (found : Array Token) :
    scanner.collect found = (.error error, next) := by
  rw [collect]
  split
  · simp_all
  · rename_i same
    rw [remains] at same
    cases same
    split <;> simp_all

theorem collect_of_ok {scanner next : Scanner} {character : Char}
    {rest : List Char} {token : Token}
    (remains : scanner.remaining = character :: rest)
    (reads : (scanner.begin character rest).token character =
      (.ok token, next)) (found : Array Token) :
    scanner.collect found = next.collect (found.push token) := by
  rw [collect]
  split
  · simp_all
  · rename_i same
    rw [remains] at same
    cases same
    split <;> simp_all

/-- Collecting tokens from a scanner lexes its remaining characters. -/
theorem Stands.collect {scanner : Scanner} {passed lexeme : List Char}
    (stands : scanner.Stands passed lexeme) (found : Array Token) :
    (scanner.collect found).1 =
        (lexAll scanner.remaining).1.map (found.toList ++ ·) ∧
      (scanner.collect found).2.remaining = (lexAll scanner.remaining).2 ∧
        ∃ passed lexeme, (scanner.collect found).2.Stands passed lexeme := by
  induction found, scanner using Scanner.collect.induct
    generalizing passed lexeme with
  | case1 found scanner empty =>
      rw [collect_of_nil empty, empty, lexAll_nil]
      exact ⟨by simp [Except.map], rfl, passed, lexeme, stands⟩
  | case2 found scanner character rest remains error next fails =>
      obtain ⟨answer, following, standing⟩ := (stands.begin remains).token
      rw [fails] at answer following standing
      have lexed : lexToken character rest = (.error error, next.remaining) :=
        Prod.ext answer.symm following.symm
      rw [collect_of_error remains fails, remains, lexAll_cons_of_error lexed]
      exact ⟨rfl, rfl, standing⟩
  | case3 found scanner character rest remains token next reads induction =>
      obtain ⟨answer, following, _, _, standing⟩ := (stands.begin remains).token
      rw [reads] at answer following standing
      have lexed : lexToken character rest = (.ok token, next.remaining) :=
        Prod.ext answer.symm following.symm
      rw [collect_of_ok remains reads, remains, lexAll_cons_of_ok lexed]
      obtain ⟨tokens, remaining, stays⟩ := induction standing
      refine ⟨?_, remaining, stays⟩
      rw [tokens]
      cases (lexAll next.remaining).1 <;> simp [Except.map]

end Scanner

/-- Scanning a text lexes its characters. -/
theorem scan_eq_lexAll (source : String) :
    scan source = (lexAll source.toList).1 := by
  have collected := ((Scanner.stands_ofSource source).collect #[]).1
  have remains : (Scanner.ofSource source).remaining = source.toList := rfl
  rw [remains] at collected
  rw [scan, Scanner.scan, collected]
  cases (lexAll source.toList).1 <;> rfl

end ParenCall
