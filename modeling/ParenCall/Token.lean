import ParenCall.DumpLayout

/-!
# Tokens

A source text is a row of tokens: parentheses, numbers, quoted strings, names,
the keyword `var`, and one token for each blank and each line feed, because the
output keeps the layout of the source.  The sign `=` is a token that no source
text spells; a token list made by hand may hold it.
-/

namespace ParenCall

/-- A lexeme with the text it carries. -/
inductive Token
  | newline
  | blank
  | leftParen
  | rightParen
  | number (digits : String)
  | string (content : String)
  | identifier (name : String)
  | var
  | equal
  deriving DecidableEq

/-- What a token is, without the text it carries. -/
inductive TokenKind
  | newline
  | blank
  | leftParen
  | rightParen
  | number
  | string
  | identifier
  | var
  | equal
  deriving DecidableEq

/-- The name of a kind in messages and dumps. -/
def TokenKind.name : TokenKind → String
  | .newline => "NewLine"
  | .blank => "Whitespace"
  | .leftParen => "LeftParen"
  | .rightParen => "RightParen"
  | .number => "NumberLiteral"
  | .string => "StringLiteral"
  | .identifier => "Identifier"
  | .var => "Var"
  | .equal => "Equal"

namespace Token

/-- The kind of a token. -/
def kind : Token → TokenKind
  | .newline => .newline
  | .blank => .blank
  | .leftParen => .leftParen
  | .rightParen => .rightParen
  | .number _ => .number
  | .string _ => .string
  | .identifier _ => .identifier
  | .var => .var
  | .equal => .equal

/-- Whether a token is layout only. -/
def isTrivia : Token → Bool
  | .newline | .blank => true
  | _ => false

/-- Whether a token is a number or a string. -/
def isLiteral : Token → Bool
  | .number _ | .string _ => true
  | _ => false

/-- The token of a whole word: the keyword, or else a name. -/
def ofWord (word : String) : Token :=
  if word = "var" then .var else .identifier word

/-- A token shown as its kind, with its text as the content. -/
def dump (token : Token) : Dump :=
  match token with
  | .number text | .string text | .identifier text =>
      .variant token.kind.name (.quoted text)
  | _ => .word token.kind.name

end Token

/-- A list of tokens shown on one line. -/
def tokensDump (escaped : Char → Bool) (tokens : List Token) : String :=
  (Dump.list (tokens.map Token.dump)).compact escaped

end ParenCall
