import ParenCall.DumpLayout

/-!
# Output phrases

An output program is the list of its phrases in output order.  A call at the
top level is a statement and ends with a semicolon; a call among the arguments
of another call does not.  The text of a program is the texts of its phrases
one after the other: all layout between them is written by the blanks and line
feeds among them.
-/

namespace ParenCall

/-- A phrase of the output. -/
inductive Phrase
  | statement (callee : String) (arguments : List Phrase)
  | call (callee : String) (arguments : List Phrase)
  | name (identifier : String)
  | number (digits : String)
  | string (content : String)
  | blank
  | newline
  | var
  | equals
  | semicolon

namespace Phrase

/-- A call applied to the texts of its arguments. -/
def callText (callee : String) (arguments : List String) : String :=
  callee ++ "(" ++ String.intercalate ", " arguments ++ ")"

mutual

/-- The text of one phrase. -/
def text : Phrase → String
  | .statement callee arguments => callText callee (texts arguments) ++ ";"
  | .call callee arguments => callText callee (texts arguments)
  | .name identifier => identifier
  | .number digits => digits
  | .string content => "\"" ++ content ++ "\""
  | .blank => " "
  | .newline => "\n"
  | .var => "var"
  | .equals => "="
  | .semicolon => ";"

/-- The texts of neighbouring phrases. -/
def texts : List Phrase → List String
  | [] => []
  | phrase :: phrases => text phrase :: texts phrases

end

/-- A name as a record of its own. -/
def nameDump (name : String) : Dump :=
  .record "Identifier" [("name", .quoted name)]

/-- A call with the structures of its arguments. -/
def callDump (callee : String) (arguments : List Dump) : Dump :=
  .record "CallExpression"
    [("callee", nameDump callee), ("arguments", .list arguments)]

mutual

/-- The structure of one phrase. -/
def dump : Phrase → Dump
  | .statement callee arguments =>
      .variant "ExpressionStatement" (callDump callee (dumps arguments))
  | .call callee arguments =>
      .variant "CallExpression" (callDump callee (dumps arguments))
  | .name identifier => .variant "Identifier" (nameDump identifier)
  | .number digits => .variant "NumberLiteral" (.quoted digits)
  | .string content => .variant "StringLiteral" (.quoted content)
  | .blank => .word "WhiteSpace"
  | .newline => .word "NewLine"
  | .var => .word "VarKeyword"
  | .equals => .word "EqualsToken"
  | .semicolon => .word "Semicolon"

/-- The structures of neighbouring phrases. -/
def dumps : List Phrase → List Dump
  | [] => []
  | phrase :: phrases => dump phrase :: dumps phrases

end

theorem texts_eq_map (phrases : List Phrase) :
    texts phrases = phrases.map text := by
  induction phrases with
  | nil => rfl
  | cons phrase phrases induction => simp [texts, induction]

theorem dumps_eq_map (phrases : List Phrase) :
    dumps phrases = phrases.map dump := by
  induction phrases with
  | nil => rfl
  | cons phrase phrases induction => simp [dumps, induction]

end Phrase

/-- The text of an output program. -/
def phrasesText (phrases : List Phrase) : String :=
  String.join (Phrase.texts phrases)

/-- An output program shown over several lines. -/
def phrasesDump (escaped : Char → Bool) (phrases : List Phrase) : String :=
  (Dump.record "Program"
    [("body", .list (Phrase.dumps phrases))]).indented escaped

end ParenCall
