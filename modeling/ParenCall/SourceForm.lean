import ParenCall.DumpLayout

/-!
# Source forms

A program is the list of its forms in source order: calls, numbers, strings,
names, and the layout between them.  A name outside the callee place is the
target of the literal after it and is followed by a blank and an equals sign;
a declaration is closed by a semicolon.

The outline of a program writes every form with one space between two
neighbours, a blank as `_` and a line feed as `\n`.
-/

namespace ParenCall

/-- A form of the source, or a sign that reading adds to it. -/
inductive Form
  | call (callee : String) (arguments : List Form)
  | number (digits : String)
  | string (content : String)
  | name (identifier : String)
  | blank
  | newline
  | var
  | equals
  | semicolon

namespace Form

mutual

/-- The outline of one form. -/
def outline : Form → String
  | .call callee arguments =>
      "(" ++ String.intercalate " " (callee :: outlines arguments) ++ ")"
  | .number digits => digits
  | .string content => "\"" ++ content ++ "\""
  | .name identifier => identifier
  | .blank => "_"
  | .newline => "\\n"
  | .var => "var"
  | .equals => "="
  | .semicolon => ";"

/-- The outlines of neighbouring forms. -/
def outlines : List Form → List String
  | [] => []
  | form :: forms => outline form :: outlines forms

end

mutual

/-- The structure of one form. -/
def dump : Form → Dump
  | .call callee arguments =>
      .record "CallExpression"
        [("callee", .quoted callee), ("arguments", .list (dumps arguments))]
  | .number digits => .variant "NumberLiteral" (.quoted digits)
  | .string content => .variant "StringLiteral" (.quoted content)
  | .name identifier => .variant "Identifier" (.quoted identifier)
  | .blank => .word "WhiteSpace"
  | .newline => .word "NewLine"
  | .var => .word "VarKeyword"
  | .equals => .word "EqualsToken"
  | .semicolon => .word "Semicolon"

/-- The structures of neighbouring forms. -/
def dumps : List Form → List Dump
  | [] => []
  | form :: forms => dump form :: dumps forms

end

theorem outlines_eq_map (forms : List Form) :
    outlines forms = forms.map outline := by
  induction forms with
  | nil => rfl
  | cons form forms induction => simp [outlines, induction]

theorem dumps_eq_map (forms : List Form) :
    dumps forms = forms.map dump := by
  induction forms with
  | nil => rfl
  | cons form forms induction => simp [dumps, induction]

end Form

/-- The outline of a program. -/
def formsOutline (forms : List Form) : String :=
  String.intercalate " " (Form.outlines forms)

/-- A program of forms shown on one line. -/
def formsDump (escaped : Char → Bool) (forms : List Form) : String :=
  (Dump.record "Program" [("body", .list (Form.dumps forms))]).compact escaped

end ParenCall
