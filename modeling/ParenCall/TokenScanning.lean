import ParenCall.BlankCharacters
import ParenCall.Token

/-!
# Scanning a source text

A scanner walks over the characters of a source text and cuts each lexeme out
of the text between two byte offsets.  Numbers, names and strings are as long
as possible, and the keyword is recognised once the whole word has been read.

A scan stops at the first character that starts no lexeme, or at a string that
is never closed.  The scanner then stands past everything it has read, and a
further scan goes on from there; the tokens read before the failure are not
returned.
-/

namespace ParenCall

/-- Why a text has no tokens. -/
inductive ScanError
  | unexpectedCharacter (character : Char)
  | unterminatedString
  deriving DecidableEq

/-- The wording of a scan error. -/
def ScanError.message : ScanError → String
  | .unexpectedCharacter character =>
      "Unexpected character '" ++ String.singleton character ++ "'"
  | .unterminatedString => "Unterminated string literal"

/-- A place in a source text.  `start` is the byte offset of the lexeme being
read, `cursor` the byte offset just past the last character read, and
`remaining` holds the characters from the cursor on. -/
structure Scanner where
  source : String
  start : String.Pos.Raw
  cursor : String.Pos.Raw
  remaining : List Char

namespace Scanner

/-- The scanner at the beginning of a text. -/
def ofSource (source : String) : Scanner where
  source := source
  start := 0
  cursor := 0
  remaining := source.toList

/-- Reads the first remaining character, which begins a lexeme. -/
def begin (scanner : Scanner) (character : Char) (rest : List Char) :
    Scanner :=
  { scanner with
    start := scanner.cursor
    cursor := scanner.cursor + character
    remaining := rest }

/-- Reads the longest run of characters of a class. -/
def skipWhile (accepts : Char → Bool) (scanner : Scanner) : Scanner :=
  { scanner with
    cursor :=
      (scanner.remaining.takeWhile accepts).foldl (· + ·) scanner.cursor
    remaining := scanner.remaining.dropWhile accepts }

/-- The text between the two offsets. -/
def lexeme (scanner : Scanner) : String :=
  String.Pos.Raw.extract scanner.source scanner.start scanner.cursor

/-- Reads what follows an opening quote, up to the next quote or the end of the
text.  The lexeme starts past the opening quote. -/
def stringContent (scanner : Scanner) : Scanner :=
  { scanner with start := scanner.cursor }.skipWhile (· ≠ '"')

/-- Reads the rest of a string whose opening quote has been read.  The text of
the token is what stands between the quotes. -/
def string (scanner : Scanner) : Except ScanError Token × Scanner :=
  match scanner.stringContent.remaining with
  | [] => (.error .unterminatedString, scanner.stringContent)
  | closing :: rest =>
      (.ok (.string scanner.stringContent.lexeme),
        { scanner.stringContent with
          cursor := scanner.stringContent.cursor + closing
          remaining := rest })

/-- Reads the rest of the lexeme that begins with a character just read. -/
def token (scanner : Scanner) (character : Char) :
    Except ScanError Token × Scanner :=
  if character = '\n' then
    (.ok .newline, scanner)
  else if character = '(' then
    (.ok .leftParen, scanner)
  else if character = ')' then
    (.ok .rightParen, scanner)
  else if character = '"' then
    scanner.string
  else if isBlank character then
    (.ok .blank, scanner)
  else if character.isDigit then
    let digits := scanner.skipWhile Char.isDigit
    (.ok (.number digits.lexeme), digits)
  else if character.isAlpha then
    let word := scanner.skipWhile Char.isAlpha
    (.ok (.ofWord word.lexeme), word)
  else
    (.error (.unexpectedCharacter character), scanner)

theorem length_remaining_skipWhile_le (accepts : Char → Bool)
    (scanner : Scanner) :
    (scanner.skipWhile accepts).remaining.length ≤
      scanner.remaining.length := by
  exact (List.dropWhile_suffix accepts).length_le

theorem length_remaining_string_le (scanner : Scanner) :
    scanner.string.2.remaining.length ≤ scanner.remaining.length := by
  have bound : scanner.stringContent.remaining.length ≤
      scanner.remaining.length :=
    length_remaining_skipWhile_le _ _
  unfold string
  split
  · exact bound
  · rename_i remains
    rw [remains] at bound
    exact Nat.le_of_succ_le bound

/-- Reading a lexeme never returns characters. -/
theorem length_remaining_token_le (scanner : Scanner) (character : Char) :
    (scanner.token character).2.remaining.length ≤
      scanner.remaining.length := by
  unfold token
  repeat' split
  all_goals
    simp only [Nat.le_refl, length_remaining_string_le,
      length_remaining_skipWhile_le]

/-- A lexeme has at least one character. -/
theorem length_remaining_lt_of_token {scanner next : Scanner}
    {character : Char} {rest : List Char} {token : Token}
    (remains : scanner.remaining = character :: rest)
    (reads : (scanner.begin character rest).token character =
      (.ok token, next)) :
    next.remaining.length < scanner.remaining.length := by
  have bound :=
    length_remaining_token_le (scanner.begin character rest) character
  rw [reads] at bound
  rw [remains]
  exact Nat.lt_succ_of_le bound

/-- Reads tokens up to the end of the text or the first failure, after those
already found. -/
def collect (found : Array Token) (scanner : Scanner) :
    Except ScanError (List Token) × Scanner :=
  match _ : scanner.remaining with
  | [] => (.ok found.toList, scanner)
  | character :: rest =>
      match _ : (scanner.begin character rest).token character with
      | (.error error, next) => (.error error, next)
      | (.ok token, next) => collect (found.push token) next
termination_by scanner.remaining.length
decreasing_by exact length_remaining_lt_of_token ‹_› ‹_›

/-- Scans the remaining text. -/
def scan (scanner : Scanner) : Except ScanError (List Token) × Scanner :=
  scanner.collect #[]

/-- The answers of successive scans with one scanner. -/
def scans (scanner : Scanner) : Nat → List (Except ScanError (List Token))
  | 0 => []
  | times + 1 => scanner.scan.1 :: scanner.scan.2.scans times

end Scanner

/-- The tokens of a text, or the first failure in it. -/
def scan (source : String) : Except ScanError (List Token) :=
  (Scanner.ofSource source).scan.1

end ParenCall
