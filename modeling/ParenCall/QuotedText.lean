/-!
# Quoted text

A dump shows a text between double quotes.  The quote, the backslash and four
control characters have two-character escapes, the characters of a given class
are written by their code point, and every other character stands for itself.
The class is a parameter: which characters show on their own is a matter of
the character table in use, and reading a quoted text back does not depend on
it.
-/

namespace ParenCall

/-- A character by its lower-case hexadecimal code point. -/
def codePointEscape (character : Char) : List Char :=
  ['\\', 'u', '\x7b'] ++ Nat.toDigits 16 character.toNat ++ ['\x7d']

/-- How a character is written inside a quoted text. -/
def escapeCharacter (escaped : Char → Bool) (character : Char) : List Char :=
  match character with
  | '"' => ['\\', '"']
  | '\\' => ['\\', '\\']
  | '\n' => ['\\', 'n']
  | '\r' => ['\\', 'r']
  | '\t' => ['\\', 't']
  | '\x00' => ['\\', '0']
  | character =>
      if escaped character then codePointEscape character else [character]

/-- The characters of a text, escaped. -/
def escapeText (escaped : Char → Bool) (text : String) : List Char :=
  text.toList.flatMap (escapeCharacter escaped)

/-- Writes a text between double quotes, and `rest` after it. -/
def writeQuoted (escaped : Char → Bool) (text : String)
    (rest : List Char) : List Char :=
  '"' :: (escapeText escaped text ++ '"' :: rest)

end ParenCall
