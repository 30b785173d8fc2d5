import ParenCall.Proofs.LegibleLowering

/-!
# Call expressions

An expression is a number, a string, or a call whose arguments are expressions.
It can be spelled in many ways, with gaps of blank characters between its parts.
A gap may be left out unless it keeps two numbers apart.  However a call is
spelled, it compiles to the statement that applies its callee to the renderings
of its arguments.

The tokens of a spelling are found in front of any text that does not continue
its last number, and its gaps add blanks among the arguments, which lowering
drops again.
-/

namespace ParenCall

/-- The digits of a number. -/
structure Numeral where
  digits : String
  nonempty : digits ≠ ""
  numeric : ∀ digit ∈ digits.toList, digit.isDigit

/-- A text that can stand between quotes. -/
structure QuotedContent where
  text : String
  unquoted : '"' ∉ text.toList

/-- A name that can be called. -/
structure CalleeName where
  name : String
  nonempty : name ≠ ""
  notKeyword : name ≠ "var"
  alphabetic : ∀ letter ∈ name.toList, letter.isAlpha

/-- An expression of any depth and width. -/
inductive Expression
  | number (numeral : Numeral)
  | string (content : QuotedContent)
  | call (callee : CalleeName) (arguments : List Expression)

/-- A run of blank characters without line feeds, possibly empty. -/
def IsGap (gap : String) : Prop :=
  ∀ character ∈ gap.toList, isBlank character ∧ character ≠ '\n'

namespace Expression

def isNumber : Expression → Bool
  | .number _ => true
  | _ => false

mutual

/-- An expression in the notation of the output. -/
def rendering : Expression → String
  | .number numeral => numeral.digits
  | .string content => "\"" ++ content.text ++ "\""
  | .call callee arguments =>
      callee.name ++ "(" ++ String.intercalate ", " (renderings arguments) ++
        ")"

/-- Neighbouring expressions in the notation of the output. -/
def renderings : List Expression → List String
  | [] => []
  | argument :: arguments => rendering argument :: renderings arguments

end

mutual

/-- Whether a text spells an expression. -/
inductive SpelledAs : Expression → String → Prop
  | number (numeral : Numeral) : SpelledAs (.number numeral) numeral.digits
  | string (content : QuotedContent) :
      SpelledAs (.string content) ("\"" ++ content.text ++ "\"")
  | call (callee : CalleeName) {arguments : List Expression} {inner : String}
      (spelled : ArgumentsSpelledAs false arguments inner) :
      SpelledAs (.call callee arguments) ("(" ++ callee.name ++ inner ++ ")")

/-- Whether a text spells the arguments of a call, each after a gap, and a last
gap.  `afterNumber` holds when the argument before them is a number, which a gap
has to keep apart from a number after it. -/
inductive ArgumentsSpelledAs : Bool → List Expression → String → Prop
  | nil {afterNumber : Bool} {gap : String} (isGap : IsGap gap) :
      ArgumentsSpelledAs afterNumber [] gap
  | cons {afterNumber : Bool} {gap text rest : String} {argument : Expression}
      {arguments : List Expression} (isGap : IsGap gap)
      (apart : afterNumber → argument.isNumber → gap ≠ "")
      (spelled : SpelledAs argument text)
      (others : ArgumentsSpelledAs argument.isNumber arguments rest) :
      ArgumentsSpelledAs afterNumber (argument :: arguments)
        (gap ++ text ++ rest)

end

end Expression

/-- A text after a gap begins with a blank character, or the gap is empty. -/
theorem IsGap.head_cases {gap rest : String} (isGap : IsGap gap) {next : Char}
    (isHead : next ∈ (gap ++ rest).toList.head?) :
    gap = "" ∧ next ∈ rest.toList.head? ∨
      next.isAlpha = false ∧ next.isDigit = false := by
  rw [String.toList_append] at isHead
  cases characters : gap.toList with
  | nil =>
      rw [characters] at isHead
      exact Or.inl ⟨String.toList_eq_nil_iff.mp characters, isHead⟩
  | cons character others =>
      rw [characters] at isHead
      cases isHead
      obtain ⟨blank, -⟩ := isGap next (by simp [characters])
      right
      constructor
      · by_contra isAlpha
        simp [isBlank_eq_false_of_isAlpha (by simpa using isAlpha)] at blank
      · by_contra isDigit
        simp [isBlank_eq_false_of_isDigit (by simpa using isDigit)] at blank

section Scanning

variable {rest : String} {tokens : List Token}

/-- A lexeme in front of a text that does not continue it is its first token. -/
theorem scan_lexeme_append {lexeme : Lexeme} {token : Token}
    (regular : lexeme.Regular) (reads : lexeme.token = .ok token)
    {text : String} (spelled : text.toList = lexeme.characters)
    (ends : lexeme.EndsBefore rest.toList) (scans : scan rest = .ok tokens) :
    scan (text ++ rest) = .ok (token :: tokens) := by
  rw [scan_eq_ok_iff_forall₂] at scans ⊢
  rw [String.toList_append, spelled, lexemes_characters_append regular ends]
  exact .cons reads scans

theorem scan_spelling_append (token : Token) (hasSpelling : token.HasSpelling)
    (ends : token.lexeme.EndsBefore rest.toList)
    (scans : scan rest = .ok tokens) :
    scan (token.spelling ++ rest) = .ok (token :: tokens) := by
  obtain ⟨regular, reads⟩ := Token.hasSpelling_iff.mp hasSpelling
  exact scan_lexeme_append regular reads token.toList_spelling ends scans

theorem scan_blank_append {character : Char} (blank : isBlank character)
    (notNewline : character ≠ '\n') (scans : scan rest = .ok tokens) :
    scan (String.singleton character ++ rest) = .ok (.blank :: tokens) := by
  have spelledAs : Token.blank.SpelledAs (String.singleton character) :=
    ⟨character, blank, notNewline, rfl⟩
  obtain ⟨lexeme, regular, spelled, reads⟩ := spelledAs.exists_lexeme trivial
  refine scan_lexeme_append regular reads spelled ?_ scans
  cases lexeme with
  | sign | string => exact fun _ _ => rfl
  | number => cases reads
  | word letters =>
      have isName := Token.isName_ofWord (.ofList letters)
      rw [Except.ok.inj reads] at isName
      cases isName

end Scanning

namespace Form

/-- Whether a form is a whole argument: a literal, or a call. -/
def IsArgument (form : Form) : Prop :=
  form.isLiteral ∨ ∃ callee arguments,
    form = .call callee arguments ∧ WellFormed .arguments arguments

variable {form : Form} {forms : List Form}

theorem IsArgument.wellFormed_cons (isArgument : form.IsArgument)
    (wellFormed : WellFormed .arguments forms) :
    WellFormed .arguments (form :: forms) := by
  rcases isArgument with isLiteral | ⟨callee, arguments, rfl, inner⟩
  · exact .literal isLiteral wellFormed
  · exact .call inner wellFormed

theorem IsArgument.unreadAll_cons (isArgument : form.IsArgument)
    (forms : List Form) :
    unreadAll (form :: forms) = form.unread ++ unreadAll forms := by
  rcases isArgument with isLiteral | ⟨callee, arguments, rfl, -⟩
  · exact unreadAll_literal isLiteral forms
  · simp [unreadAll]

theorem IsArgument.lowerAll_cons (isArgument : form.IsArgument)
    (options : Options) (forms : List Form) :
    lowerAll options .arguments false (form :: forms) =
      form.lower options .arguments ::
        lowerAll options .arguments false forms := by
  rcases isArgument with isLiteral | ⟨callee, arguments, rfl, -⟩
  · exact lowerAll_literal isLiteral options .arguments forms
  · simp [lowerAll]

end Form

namespace Expression

/-- A form that a spelling of an expression is read to. -/
structure ReadAs (expression : Expression) (text : String) (form : Form) :
    Prop where
  isArgument : form.IsArgument
  rendered : ∀ options,
    (form.lower options .arguments).text = expression.rendering
  /-- The tokens of the form stand in front of any text that does not continue a
  number. -/
  scanned : ∀ {rest : String} {tokens : List Token}, scan rest = .ok tokens →
    (expression.isNumber →
      ∀ next ∈ rest.toList.head?, next.isDigit = false) →
      scan (text ++ rest) = .ok (form.unread ++ tokens)

/-- The forms that a spelling of the arguments of a call is read to. -/
structure ArgumentsReadAs (arguments : List Expression) (text : String)
    (forms : List Form) : Prop where
  wellFormed : Form.WellFormed .arguments forms
  rendered : ∀ options,
    Phrase.texts (Form.lowerAll options .arguments false forms) =
      renderings arguments
  /-- The tokens of the forms are closed by the parenthesis of the call. -/
  scanned : ∀ {rest : String} {tokens : List Token}, scan rest = .ok tokens →
    scan (text ++ (")" ++ rest)) =
      .ok (Form.unreadAll forms ++ .rightParen :: tokens)

section Heads

variable {next : Char}

/-- No expression begins with a letter, and only numbers begin with a digit. -/
theorem SpelledAs.head {expression : Expression} {text : String}
    (spelled : SpelledAs expression text) {rest : String}
    (isHead : next ∈ (text ++ rest).toList.head?) :
    next.isAlpha = false ∧ (next.isDigit → expression.isNumber) := by
  cases spelled with
  | number numeral =>
      have nonempty : numeral.digits.toList ≠ [] :=
        mt String.toList_eq_nil_iff.mp numeral.nonempty
      rw [String.toList_append, List.head?_append_of_ne_nil _ nonempty]
        at isHead
      have isDigit := numeral.numeric next (List.mem_of_mem_head? isHead)
      exact ⟨isAlpha_eq_false_of_isDigit isDigit, fun _ => rfl⟩
  | string content =>
      have nextEq : '"' = next := by simpa using isHead
      rw [← nextEq]
      exact ⟨rfl, fun isDigit => absurd isDigit (by decide)⟩
  | call callee inner =>
      have nextEq : '(' = next := by simpa using isHead
      rw [← nextEq]
      exact ⟨rfl, fun isDigit => absurd isDigit (by decide)⟩

/-- What follows a callee does not continue it, and what follows a number among
the arguments does not continue that number. -/
theorem ArgumentsSpelledAs.head {afterNumber : Bool}
    {arguments : List Expression} {text : String}
    (spelled : ArgumentsSpelledAs afterNumber arguments text) {rest : String}
    (isHead : next ∈ (text ++ (")" ++ rest)).toList.head?) :
    next.isAlpha = false ∧ (afterNumber → next.isDigit = false) := by
  cases spelled with
  | nil isGap =>
      rcases isGap.head_cases isHead with ⟨-, isParen⟩ | ⟨notAlpha, notDigit⟩
      · have nextEq : ')' = next := by simpa using isParen
        rw [← nextEq]
        exact ⟨rfl, fun _ => rfl⟩
      · exact ⟨notAlpha, fun _ => notDigit⟩
  | @cons _ gap text rest argument arguments isGap apart spelled others =>
      rw [String.append_assoc, String.append_assoc] at isHead
      rcases isGap.head_cases isHead with ⟨noGap, later⟩ | ⟨notAlpha, notDigit⟩
      · obtain ⟨notAlpha, isNumber⟩ := spelled.head later
        refine ⟨notAlpha, ?_⟩
        intro afterNumber
        by_contra isDigit
        exact apart afterNumber (isNumber (by simpa using isDigit)) noGap
      · exact ⟨notAlpha, fun _ => notDigit⟩

end Heads

section Reading

variable {expression : Expression} {arguments : List Expression}
  {text rest : String} {form : Form} {forms : List Form}

theorem ReadAs.number (numeral : Numeral) :
    ReadAs (.number numeral) numeral.digits (.number numeral.digits) where
  isArgument := Or.inl rfl
  rendered _ := rfl
  scanned scans ends :=
    scan_spelling_append (.number numeral.digits)
      ⟨numeral.nonempty, numeral.numeric⟩ (ends rfl) scans

theorem ReadAs.string (content : QuotedContent) :
    ReadAs (.string content) ("\"" ++ content.text ++ "\"")
      (.string content.text) where
  isArgument := Or.inl rfl
  rendered _ := rfl
  scanned scans _ :=
    scan_spelling_append (.string content.text) content.unquoted
      (fun _ _ => rfl) scans

/-- A call is read from its parenthesis, its callee and its arguments. -/
theorem ReadAs.call (callee : CalleeName)
    (inner : ArgumentsReadAs arguments text forms)
    (ends : ∀ rest, ∀ next ∈ (text ++ (")" ++ rest)).toList.head?,
      next.isAlpha = false) :
    ReadAs (.call callee arguments) ("(" ++ callee.name ++ text ++ ")")
      (.call callee.name forms) where
  isArgument := Or.inr ⟨callee.name, forms, rfl, inner.wellFormed⟩
  rendered options := by
    simp [Form.lower, Place.call, Phrase.text, Phrase.callText, rendering,
      inner.rendered]
  scanned := by
    intro rest tokens scans _
    have named := scan_spelling_append (.identifier callee.name)
      ⟨callee.nonempty, callee.notKeyword, callee.alphabetic⟩ (ends rest)
      (inner.scanned scans)
    have opened := scan_spelling_append .leftParen trivial (fun _ _ => rfl)
      named
    simpa [Token.spelling, String.append_assoc, Form.unread] using opened

theorem ArgumentsReadAs.nil : ArgumentsReadAs [] "" [] where
  wellFormed := .nil
  rendered _ := by simp [Form.lowerAll, Phrase.texts, renderings]
  scanned scans := by
    have closed := scan_spelling_append .rightParen trivial (fun _ _ => rfl)
      scans
    simpa [Token.spelling, Form.unreadAll] using closed

/-- A blank before arguments is one more form, which lowering drops. -/
theorem ArgumentsReadAs.blank {character : Char} (blank : isBlank character)
    (notNewline : character ≠ '\n')
    (read : ArgumentsReadAs arguments text forms) :
    ArgumentsReadAs arguments (String.singleton character ++ text)
      (.blank :: forms) where
  wellFormed := .trivia rfl read.wellFormed
  rendered options := by simpa [Form.lowerAll] using read.rendered options
  scanned scans := by
    rw [String.append_assoc, Form.unreadAll_trivia rfl]
    exact scan_blank_append blank notNewline (read.scanned scans)

theorem ArgumentsReadAs.gap {gap : String} (isGap : IsGap gap)
    (read : ArgumentsReadAs arguments text forms) :
    ∃ forms, ArgumentsReadAs arguments (gap ++ text) forms := by
  induction characters : gap.toList generalizing gap with
  | nil =>
      rw [String.toList_eq_nil_iff.mp characters]
      exact ⟨forms, by simpa using read⟩
  | cons character others induction =>
      have gapEq : gap = String.singleton character ++ .ofList others := by
        apply String.toList_inj.mp
        simp [characters]
      obtain ⟨blank, notNewline⟩ := isGap character (by simp [characters])
      have othersGap : IsGap (.ofList others) := by
        intro other member
        exact isGap other (by simp_all)
      obtain ⟨spaced, readSpaced⟩ := induction othersGap (by simp)
      refine ⟨.blank :: spaced, ?_⟩
      rw [gapEq, String.append_assoc]
      exact readSpaced.blank blank notNewline

theorem ArgumentsReadAs.cons (read : ReadAs expression text form)
    (others : ArgumentsReadAs arguments rest forms)
    (ends : expression.isNumber → ∀ following,
      ∀ next ∈ (rest ++ (")" ++ following)).toList.head?,
        next.isDigit = false) :
    ArgumentsReadAs (expression :: arguments) (text ++ rest)
      (form :: forms) where
  wellFormed := read.isArgument.wellFormed_cons others.wellFormed
  rendered options := by
    rw [read.isArgument.lowerAll_cons, Phrase.texts, renderings, read.rendered,
      others.rendered]
  scanned scans := by
    rw [String.append_assoc, read.isArgument.unreadAll_cons, List.append_assoc]
    exact read.scanned (others.scanned scans) fun isNumber => ends isNumber _

end Reading

mutual

/-- Every spelling of an expression is read to a form of it. -/
theorem SpelledAs.exists_readAs {expression : Expression} {text : String}
    (spelled : SpelledAs expression text) :
    ∃ form, ReadAs expression text form := by
  cases spelled with
  | number numeral => exact ⟨_, .number numeral⟩
  | string content => exact ⟨_, .string content⟩
  | call callee inner =>
      obtain ⟨forms, read⟩ := inner.exists_readAs
      exact ⟨_, .call callee read fun _ _ isHead => (inner.head isHead).1⟩

/-- Every spelling of arguments is read to forms of them. -/
theorem ArgumentsSpelledAs.exists_readAs {afterNumber : Bool}
    {arguments : List Expression} {text : String}
    (spelled : ArgumentsSpelledAs afterNumber arguments text) :
    ∃ forms, ArgumentsReadAs arguments text forms := by
  cases spelled with
  | nil isGap =>
      obtain ⟨forms, read⟩ := ArgumentsReadAs.nil.gap isGap
      exact ⟨forms, by simpa using read⟩
  | cons isGap apart spelled others =>
      obtain ⟨form, read⟩ := spelled.exists_readAs
      obtain ⟨forms, readOthers⟩ := others.exists_readAs
      have joined := ArgumentsReadAs.cons read readOthers
        fun isNumber _ _ isHead => (others.head isHead).2 isNumber
      obtain ⟨all, readAll⟩ := joined.gap isGap
      exact ⟨all, by simpa [String.append_assoc] using readAll⟩

end

/-- Every spelling of a call compiles to the statement of its rendering,
whatever its gaps and the options. -/
theorem compile_spelling_of_call (options : Options) {callee : CalleeName}
    {arguments : List Expression} {source : String}
    (spelled : SpelledAs (.call callee arguments) source) :
    compile options source =
      .ok ((call callee arguments).rendering ++ ";") := by
  cases spelled with
  | @call _ _ inner spelled =>
      obtain ⟨forms, read⟩ := spelled.exists_readAs
      have readCall := ReadAs.call callee read fun _ _ isHead =>
        (spelled.head isHead).1
      have empty : scan "" = .ok [] := by
        rw [scan_eq_lexAll, String.toList_empty, lexAll_nil]
      have scans : scan ("(" ++ callee.name ++ inner ++ ")") =
          .ok (Form.unreadAll [.call callee.name forms]) := by
        simpa [Form.unreadAll] using readCall.scanned empty (by simp)
      have wellFormed : Form.WellFormed .topLevel [.call callee.name forms] :=
        .call read.wellFormed .nil
      have reads := readForms_unreadAll wellFormed
      rw [compile_of_scan_ok scans, reads]
      simp [Except.mapError, Except.map, lowerForms, Form.lowerAll, Form.lower,
        Place.call, phrasesText, Phrase.texts, Phrase.text, Phrase.callText,
        rendering, read.rendered]

theorem compile_spelling_of_call_without_gaps :
    SpelledAs
        (.call ⟨"f", by decide, by decide, by simp⟩
          [.string ⟨"a", by decide⟩,
            .call ⟨"g", by decide, by decide, by simp⟩ [],
            .number ⟨"2", by decide, by simp⟩,
            .number ⟨"34", by decide, by simp⟩])
        "(f\"a\"(g)2\t34 )" ∧
      compile ⟨true⟩ "(f\"a\"(g)2\t34 )" =
        .ok "f(\"a\", g(), 2, 34);" := by
  have noGap : IsGap "" := by simp [IsGap]
  have tab : IsGap "\t" := by
    simp [IsGap, isBlank, blankRanges, CodePointRange.contains]
  have space : IsGap " " := by
    simp [IsGap, isBlank, blankRanges, CodePointRange.contains]
  have spelled := SpelledAs.call ⟨"f", by decide, by decide, by simp⟩
    (.cons noGap (by simp) (.string ⟨"a", by decide⟩)
      (.cons noGap (by simp [isNumber])
        (.call ⟨"g", by decide, by decide, by simp⟩ (.nil noGap))
        (.cons noGap (by simp [isNumber]) (.number ⟨"2", by decide, by simp⟩)
          (.cons tab (by simp) (.number ⟨"34", by decide, by simp⟩)
            (.nil space)))))
  exact ⟨spelled, compile_spelling_of_call ⟨true⟩ spelled⟩

end Expression

end ParenCall
