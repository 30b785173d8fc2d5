import ParenCall.Proofs.AcceptedPrograms

/-!
# Translation in one pass

The output text can be written from left to right while the tokens are taken,
without building forms or phrases.  The pass keeps the open calls, and for each
of them whether an argument has been written, whether a keyword outside every
call still waits for its literal, and whether only blanks have been seen since
a keyword that was dropped.

Outside every call a token is written as it stands; a name gets its equals sign
and the literal of a declaration its semicolon.  Inside a call blanks are
dropped, and everything else is an argument, divided from the argument before
it.  A call ends with a semicolon when no other call is around it.

For every accepted list of tokens the pass writes the text of the phrases that
the forms of these tokens are lowered to.
-/

namespace ParenCall

/-- What a single pass over the tokens keeps. -/
structure Emission where
  /-- For each open call, from the innermost outwards, whether an argument of
  it has been written. -/
  calls : List Bool
  /-- Whether a keyword outside every call waits for its literal. -/
  awaitsLiteral : Bool
  /-- Whether only blanks have been seen since a dropped keyword. -/
  afterVar : Bool

namespace Emission

def start : Emission where
  calls := []
  awaitsLiteral := false
  afterVar := false

/-- What stands between the next argument and those written before it. -/
def separator (emission : Emission) : String :=
  match emission.calls with
  | true :: _ => ", "
  | _ => ""

def markWritten (emission : Emission) : Emission :=
  match emission.calls with
  | [] => emission
  | _ :: outer => { emission with calls := true :: outer }

/-- Writes one argument of the innermost call. -/
def argument (emission : Emission) (text : String) : String × Emission :=
  (emission.separator ++ text, emission.markWritten)

/-- Writes a literal outside every call, and the semicolon after the literal
that a keyword waits for. -/
def literal (emission : Emission) (text : String) : String × Emission :=
  (text ++ (if emission.awaitsLiteral then ";" else ""),
    { emission with awaitsLiteral := false, afterVar := false })

/-- Writes what a token outside every call stands for. -/
def outsideCalls (options : Options) (emission : Emission) :
    Token → String × Emission
  | .blank => (if emission.afterVar then "" else " ", emission)
  | .newline => ("\n", { emission with afterVar := false })
  | .number digits => emission.literal digits
  | .string content => emission.literal ("\"" ++ content ++ "\"")
  | .identifier name => (name ++ " =", { emission with afterVar := false })
  | .var =>
      (if options.keepVar then "var" else "",
        { emission with
          awaitsLiteral := true
          afterVar := !options.keepVar })
  | .equal => ("=", { emission with afterVar := false })
  | .leftParen | .rightParen => ("", emission)

/-- Writes what a token inside a call stands for.  `outer` are the calls around
that call. -/
def insideCall (options : Options) (emission : Emission) (outer : List Bool) :
    Token → String × Emission
  | .blank => ("", emission)
  | .newline => emission.argument "\n"
  | .number digits => emission.argument digits
  | .string content => emission.argument ("\"" ++ content ++ "\"")
  | .identifier name => emission.argument (name ++ ", " ++ "=")
  | .var => if options.keepVar then emission.argument "var" else ("", emission)
  | .equal => emission.argument "="
  | .rightParen =>
      (if outer.isEmpty then ");" else ")", { emission with calls := outer })
  | .leftParen => ("", emission)

def token (options : Options) (emission : Emission) (token : Token) :
    String × Emission :=
  match emission.calls with
  | [] => emission.outsideCalls options token
  | _ :: outer => emission.insideCall options outer token

/-- Opens a call, which is an argument of the call around it. -/
def openCall (emission : Emission) : Emission :=
  { emission.markWritten with
    calls := false :: emission.markWritten.calls
    afterVar := false }

end Emission

/-- The text of tokens, written in one pass over them. -/
def translate (options : Options) : Emission → List Token → String
  | _, [] => ""
  | emission, .leftParen :: .identifier callee :: rest =>
      emission.separator ++ callee ++ "(" ++
        translate options emission.openCall rest
  | emission, token :: rest =>
      (emission.token options token).1 ++
        translate options (emission.token options token).2 rest

/-- The texts of arguments after those already written. -/
def argumentsText : Bool → List String → String
  | _, [] => ""
  | written, text :: texts =>
      (if written then ", " else "") ++ text ++ argumentsText true texts

theorem argumentsText_true_cons (text : String) (texts : List String) :
    argumentsText true (text :: texts) =
      ", " ++ String.intercalate ", " (text :: texts) := by
  induction texts generalizing text with
  | nil => simp [argumentsText]
  | cons next texts induction =>
      rw [argumentsText, induction]
      simp [String.append_assoc]

theorem argumentsText_false (texts : List String) :
    argumentsText false texts = String.intercalate ", " texts := by
  cases texts with
  | nil => simp [argumentsText]
  | cons text texts =>
      cases texts with
      | nil => simp [argumentsText]
      | cons next texts =>
          rw [argumentsText, argumentsText_true_cons]
          simp [String.append_assoc]

namespace Form

theorem lowerAll_arguments_afterVar (options : Options) (afterVar : Bool)
    (forms : List Form) :
    lowerAll options .arguments afterVar forms =
      lowerAll options .arguments false forms := by
  induction forms generalizing afterVar with
  | nil => simp [lowerAll]
  | cons form forms induction =>
      cases form <;> simp [lowerAll, induction]

end Form

theorem translate_cons {token : Token} (noCall : token ≠ .leftParen)
    (options : Options) (emission : Emission) (rest : List Token) :
    translate options emission (token :: rest) =
      (emission.token options token).1 ++
        translate options (emission.token options token).2 rest := by
  cases token with
  | leftParen => exact absurd rfl noCall
  | _ => rfl

theorem translate_argument {options : Options} {token : Token} {text : String}
    {written awaitsLiteral afterVar : Bool} {outer : List Bool}
    (noCall : token ≠ .leftParen)
    (writes : Emission.token options
        ⟨written :: outer, awaitsLiteral, afterVar⟩ token =
      Emission.argument ⟨written :: outer, awaitsLiteral, afterVar⟩ text)
    (rest : List Token) :
    translate options ⟨written :: outer, awaitsLiteral, afterVar⟩
        (token :: rest) =
      (if written then ", " else "") ++ text ++
        translate options ⟨true :: outer, awaitsLiteral, afterVar⟩ rest := by
  rw [translate_cons noCall, writes]
  cases written <;> rfl

open Form

/-- One pass over the tokens of arguments writes the texts of their phrases,
each divided from the argument before it. -/
theorem translate_arguments {place : Place} {forms : List Form}
    (wellFormed : WellFormed place forms) (inCall : place = .arguments)
    (options : Options) (written : Bool) (outer : List Bool)
    (awaitsLiteral : Bool) (rest : List Token) :
    translate options ⟨written :: outer, awaitsLiteral, false⟩
        (unreadAll forms ++ rest) =
      argumentsText written
          (Phrase.texts (lowerAll options .arguments false forms)) ++
        translate options
          ⟨(written || !(lowerAll options .arguments false forms).isEmpty) ::
              outer, awaitsLiteral, false⟩ rest := by
  induction wellFormed generalizing written outer awaitsLiteral rest with
  | nil => simp [unreadAll, lowerAll, Phrase.texts, argumentsText]
  | @trivia place form forms isTrivia tail induction =>
      cases form with
      | blank =>
          rw [unreadAll_trivia isTrivia, unread, List.append_assoc,
            List.singleton_append, translate_cons (by simp)]
          simp [Emission.token, Emission.insideCall, lowerAll, induction inCall]
      | newline =>
          rw [unreadAll_trivia isTrivia, unread, List.append_assoc,
            List.singleton_append, translate_argument (by simp) rfl,
            induction inCall]
          simp [lowerAll, lower, Phrase.texts, Phrase.text, argumentsText,
            String.append_assoc]
      | _ => simp [Form.isTrivia] at isTrivia
  | @literal place form forms isLiteral tail induction =>
      cases form with
      | number | string =>
          rw [unreadAll_literal isLiteral, unread, List.append_assoc,
            List.singleton_append, translate_argument (by simp) rfl,
            induction inCall]
          simp [lowerAll, lower, Phrase.texts, Phrase.text, argumentsText,
            String.append_assoc]
      | _ => simp [Form.isLiteral] at isLiteral
  | equals tail induction =>
      rw [unreadAll_equals, List.cons_append,
        translate_argument (by simp) rfl, induction inCall]
      simp [lowerAll, lower, Phrase.texts, Phrase.text, argumentsText,
        String.append_assoc]
  | call inner tail innerInduction induction =>
      rw [unreadAll_call]
      simp only [List.cons_append, List.append_assoc]
      rw [translate]
      simp only [Emission.openCall, Emission.markWritten]
      rw [innerInduction rfl, translate_cons (by simp)]
      simp only [Emission.token, Emission.insideCall]
      rw [induction inCall, argumentsText_false]
      cases written <;>
        simp [lowerAll, lower, Phrase.texts, Phrase.text, argumentsText,
          String.append_assoc, Emission.separator, Place.call, Phrase.callText]
  | target next tail induction =>
      rw [unreadAll_target, List.cons_append,
        translate_argument (by simp) rfl, induction inCall]
      simp [lowerAll, lower, Phrase.texts, Phrase.text, argumentsText,
        String.append_assoc]
  | argumentVar tail induction =>
      rw [unreadAll_var, List.cons_append]
      cases keeps : options.keepVar with
      | true =>
          have writes : Emission.token options
              ⟨written :: outer, awaitsLiteral, false⟩ .var =
                Emission.argument ⟨written :: outer, awaitsLiteral, false⟩
                  "var" := by
            simp [Emission.token, Emission.insideCall, keeps]
          rw [translate_argument (by simp) writes, induction inCall]
          simp [lowerAll, Phrase.texts, Phrase.text, argumentsText,
            String.append_assoc, keeps]
      | false =>
          -- The dropped keyword swallows blanks, but a call drops them anyway.
          rw [translate_cons (by simp)]
          simp [Emission.token, Emission.insideCall, keeps, lowerAll,
            lowerAll_arguments_afterVar, induction inCall]
  | declaration => cases inCall

@[simp] theorem phrasesText_nil : phrasesText [] = "" := by
  simp [phrasesText, Phrase.texts]

@[simp] theorem phrasesText_cons (phrase : Phrase) (phrases : List Phrase) :
    phrasesText (phrase :: phrases) = phrase.text ++ phrasesText phrases := by
  simp [phrasesText, Phrase.texts]

/-- Whether one pass over tokens outside every call writes the text of
forms. -/
def WritesForms (options : Options) (awaitsLiteral afterVar : Bool)
    (tokens : List Token) (forms : List Form) : Prop :=
  translate options ⟨[], awaitsLiteral, afterVar⟩ tokens =
    phrasesText (lowerAll options .topLevel afterVar forms)

namespace WritesForms

variable {options : Options} {awaitsLiteral afterVar : Bool}
  {tokens : List Token} {forms : List Form}

theorem blank (writes : WritesForms options awaitsLiteral afterVar tokens forms) :
    WritesForms options awaitsLiteral afterVar (.blank :: tokens)
      (.blank :: forms) := by
  unfold WritesForms at *
  rw [translate_cons (by simp)]
  cases afterVar <;>
    simp [Emission.token, Emission.outsideCalls, lowerAll, Phrase.text, writes]

theorem newline (writes : WritesForms options awaitsLiteral false tokens forms) :
    WritesForms options awaitsLiteral afterVar (.newline :: tokens)
      (.newline :: forms) := by
  unfold WritesForms at *
  rw [translate_cons (by simp)]
  simp [Emission.token, Emission.outsideCalls, lowerAll, lower, Phrase.text,
    writes]

theorem equal (writes : WritesForms options awaitsLiteral false tokens forms) :
    WritesForms options awaitsLiteral false (.equal :: tokens)
      (.equals :: forms) := by
  unfold WritesForms at *
  rw [translate_cons (by simp)]
  simp [Emission.token, Emission.outsideCalls, lowerAll, lower, Phrase.text,
    writes]

theorem target (writes : WritesForms options awaitsLiteral false tokens forms)
    (name : String) :
    WritesForms options awaitsLiteral afterVar (.identifier name :: tokens)
      (.name name :: .blank :: .equals :: forms) := by
  unfold WritesForms at *
  have equalsSign : " =" = " " ++ "=" := rfl
  have lowers : lowerAll options .topLevel afterVar
      (.name name :: .blank :: .equals :: forms) =
        .name name :: .blank :: .equals ::
          lowerAll options .topLevel false forms := by
    simp [lowerAll, lower]
  rw [translate_cons (by simp), lowers]
  simp only [Emission.token, Emission.outsideCalls, phrasesText_cons,
    Phrase.text, writes, equalsSign, String.append_assoc]

theorem literal {form : Form} (isLiteral : form.isLiteral)
    (writes : WritesForms options false false tokens forms) :
    WritesForms options false false (form.unread ++ tokens)
      (form :: forms) := by
  unfold WritesForms at *
  cases form with
  | number | string =>
      rw [unread, List.singleton_append, translate_cons (by simp)]
      simp [Emission.token, Emission.outsideCalls, Emission.literal, lowerAll,
        lower, Phrase.text, writes]
  | _ => simp [Form.isLiteral] at isLiteral

/-- The literal of a declaration is written with the semicolon after it. -/
theorem value {form : Form} (isLiteral : form.isLiteral)
    (writes : WritesForms options false false tokens forms) :
    WritesForms options true false (form.unread ++ tokens)
      (form :: .semicolon :: forms) := by
  unfold WritesForms at *
  cases form with
  | number | string =>
      rw [unread, List.singleton_append, translate_cons (by simp)]
      simp only [Emission.token, Emission.outsideCalls, Emission.literal,
        if_true, lowerAll, lower, phrasesText_cons, Phrase.text, writes,
        String.append_assoc]
  | _ => simp [Form.isLiteral] at isLiteral

theorem trivia {form : Form} (isTrivia : form.isTrivia)
    (writes : WritesForms options awaitsLiteral false tokens forms) :
    WritesForms options awaitsLiteral false (form.unread ++ tokens)
      (form :: forms) := by
  cases form with
  | blank => exact writes.blank
  | newline => exact writes.newline
  | _ => simp [Form.isTrivia] at isTrivia

theorem spacing {spacing : List Form}
    (spacingTrivia : ∀ form ∈ spacing, form.isTrivia)
    (writes : WritesForms options awaitsLiteral false tokens forms) :
    WritesForms options awaitsLiteral false (unreadAll spacing ++ tokens)
      (spacing ++ forms) := by
  induction spacing with
  | nil => exact writes
  | cons form spacing induction =>
      have isTrivia : form.isTrivia := spacingTrivia form (by simp)
      rw [unreadAll_trivia isTrivia, List.append_assoc]
      exact trivia isTrivia
        (induction fun other member => spacingTrivia other (by simp [member]))

/-- Between the keyword and its name, blanks are dropped with the keyword until
the first line feed. -/
theorem declaredTarget {layout : List Form}
    (layoutTrivia : ∀ form ∈ layout, form.isTrivia)
    (writes : WritesForms options awaitsLiteral false tokens forms)
    (name : String) :
    WritesForms options awaitsLiteral afterVar
      (unreadAll layout ++ .identifier name :: tokens)
      (layout ++ .name name :: .blank :: .equals :: forms) := by
  induction layout generalizing afterVar with
  | nil => exact writes.target name
  | cons form layout induction =>
      have isTrivia : form.isTrivia := layoutTrivia form (by simp)
      have later := fun flag => @induction flag
        fun other member => layoutTrivia other (by simp [member])
      rw [unreadAll_trivia isTrivia, List.append_assoc]
      cases form with
      | blank => exact (later afterVar).blank
      | newline => exact (later false).newline
      | _ => simp [Form.isTrivia] at isTrivia

theorem keyword
    (writes : WritesForms options true (!options.keepVar) tokens forms) :
    WritesForms options false false (.var :: tokens) (.var :: forms) := by
  unfold WritesForms at *
  rw [translate_cons (by simp)]
  cases keeps : options.keepVar <;>
    simp_all [Emission.token, Emission.outsideCalls, lowerAll, Phrase.text]

theorem call {arguments : List Form}
    (inner : WellFormed .arguments arguments)
    (writes : WritesForms options false false tokens forms) (callee : String) :
    WritesForms options false false
      (.leftParen :: .identifier callee ::
        (unreadAll arguments ++ .rightParen :: tokens))
      (.call callee arguments :: forms) := by
  unfold WritesForms at *
  rw [translate]
  simp only [Emission.openCall, Emission.markWritten]
  rw [translate_arguments inner rfl, translate_cons (by simp),
    argumentsText_false]
  simp only [Emission.token, Emission.insideCall, writes]
  simp [Emission.separator, lowerAll, lower, Place.call, Phrase.text,
    Phrase.callText, String.append_assoc]

end WritesForms

/-- One pass over the tokens of a well-formed program writes its text. -/
theorem writesForms_unreadAll {place : Place} {forms : List Form}
    (wellFormed : WellFormed place forms) (outside : place = .topLevel)
    (options : Options) :
    WritesForms options false false (unreadAll forms) forms := by
  induction wellFormed with
  | nil => simp [WritesForms, unreadAll, translate, lowerAll]
  | trivia isTrivia tail induction =>
      rw [unreadAll_trivia isTrivia]
      exact .trivia isTrivia (induction outside)
  | literal isLiteral tail induction =>
      rw [unreadAll_literal isLiteral]
      exact .literal isLiteral (induction outside)
  | equals tail induction =>
      rw [unreadAll_equals]
      exact (induction outside).equal
  | @call _ callee _ _ inner tail innerInduction induction =>
      rw [unreadAll_call]
      exact .call inner (induction outside) callee
  | @target _ name _ next tail induction =>
      rw [unreadAll_target]
      exact (induction outside).target name
  | argumentVar => cases outside
  | @declaration name _ _ _ _ layoutTrivia spacingTrivia isLiteral tail induction =>
      rw [unreadAll_declaration layoutTrivia spacingTrivia isLiteral]
      have value := WritesForms.value isLiteral (induction outside)
      have spaced := value.spacing spacingTrivia
      exact (spaced.declaredTarget layoutTrivia name).keyword

/-- For accepted tokens, reading, lowering and writing the phrases gives the
text that one pass over the tokens writes. -/
theorem phrasesText_eq_translate (options : Options) {tokens : List Token}
    {forms : List Form} (accepts : readForms tokens = .ok forms) :
    phrasesText (lowerForms options forms) =
      translate options .start tokens := by
  obtain ⟨wellFormed, rfl⟩ := wellFormed_of_readForms accepts
  exact (writesForms_unreadAll wellFormed rfl options).symm

theorem phrasesText_eq_translate_declaration_call :
    readForms
        [.var, .blank, .identifier "a", .string "x", .leftParen,
          .identifier "f", .var, .blank, .identifier "b", .number "2",
          .newline, .leftParen, .identifier "g", .rightParen, .rightParen] =
      .ok [.var, .blank, .name "a", .blank, .equals, .string "x", .semicolon,
        .call "f" [.var, .blank, .name "b", .blank, .equals, .number "2",
          .newline, .call "g" []]] ∧
      phrasesText
          (lowerForms ⟨false⟩
            [.var, .blank, .name "a", .blank, .equals, .string "x", .semicolon,
              .call "f" [.var, .blank, .name "b", .blank, .equals, .number "2",
                .newline, .call "g" []]]) =
        translate ⟨false⟩ .start
          [.var, .blank, .identifier "a", .string "x", .leftParen,
            .identifier "f", .var, .blank, .identifier "b", .number "2",
            .newline, .leftParen, .identifier "g", .rightParen,
            .rightParen] := by
  exact ⟨rfl, phrasesText_eq_translate ⟨false⟩ rfl⟩

example :
    translate ⟨false⟩ .start
        [.var, .blank, .identifier "a", .number "1", .leftParen,
          .identifier "f", .var, .number "2", .newline, .rightParen] =
      "a =1;f(2, \n);" := by
  rfl

end ParenCall
