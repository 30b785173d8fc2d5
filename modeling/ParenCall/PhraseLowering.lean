import ParenCall.OutputPhrase
import ParenCall.SourceForm

/-!
# Lowering forms to phrases

Lowering keeps the order of the forms and changes three things.  A call at the
top level becomes a statement.  Blanks between arguments are dropped, because
commas divide the arguments of the output.  And unless the options keep it, the
keyword is dropped, together with the blanks that follow it directly; line
feeds always stay.
-/

namespace ParenCall

/-- What the output depends on beside the source. -/
structure Options where
  /-- Whether declarations keep their keyword. -/
  keepVar : Bool := false
  deriving DecidableEq

/-- Where a list of forms stands. -/
inductive Place
  | topLevel
  | arguments
  deriving DecidableEq

/-- The phrase of a call that stands in the given place. -/
def Place.call : Place → String → List Phrase → Phrase
  | .topLevel => .statement
  | .arguments => .call

namespace Form

mutual

/-- The phrase of a form that is not dropped. -/
def lower (options : Options) (place : Place) : Form → Phrase
  | .call callee arguments =>
      place.call callee (lowerAll options .arguments false arguments)
  | .number digits => .number digits
  | .string content => .string content
  | .name identifier => .name identifier
  | .blank => .blank
  | .newline => .newline
  | .var => .var
  | .equals => .equals
  | .semicolon => .semicolon

/-- The phrases of neighbouring forms.  `afterVar` holds when only blanks stand
between these forms and a keyword dropped before them. -/
def lowerAll (options : Options) (place : Place) (afterVar : Bool) :
    List Form → List Phrase
  | [] => []
  | form :: forms =>
      match form with
      | .blank =>
          if place = .arguments || afterVar then
            lowerAll options place afterVar forms
          else
            .blank :: lowerAll options place false forms
      | .var =>
          if options.keepVar then
            .var :: lowerAll options place false forms
          else
            lowerAll options place true forms
      | form =>
          lower options place form :: lowerAll options place false forms

end

end Form

/-- The output program of a source program. -/
def lowerForms (options : Options) (forms : List Form) : List Phrase :=
  Form.lowerAll options .topLevel false forms

end ParenCall
