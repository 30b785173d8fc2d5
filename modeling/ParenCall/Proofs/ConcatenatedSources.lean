import Mathlib
import ParenCall.Compilation
import ParenCall.Proofs.ConcatenatedCharacters
import ParenCall.Proofs.ConcatenatedTokens

/-!
# Compiling concatenated sources

A text that compiles leaves nothing open at its end.  Its last lexeme is no
name, because a literal or a closing parenthesis follows every name; its calls
and declarations are closed; and no dropped keyword is left behind.  So only a
number can run on from it into the text after it, and otherwise the two texts
are compiled one after the other.
-/

namespace ParenCall

namespace Form

theorem lowerAll_append_solid (options : Options) (place : Place)
    (afterVar : Bool) (first : List Form) {solid : Form}
    (notBlank : solid ≠ .blank) (notVar : solid ≠ .var) (second : List Form) :
    lowerAll options place afterVar (first ++ solid :: second) =
      lowerAll options place afterVar (first ++ [solid]) ++
        lowerAll options place false second := by
  induction first generalizing afterVar with
  | nil => cases solid <;> simp_all [lowerAll]
  | cons form first induction =>
      simp only [List.cons_append]
      cases form with
      | blank | var =>
          simp only [lowerAll]
          split <;> simp [induction]
      | _ => simp [lowerAll, induction]

/-- A well-formed program leaves no dropped keyword behind, so that what
follows it is lowered as it is alone. -/
theorem lowerAll_append {place : Place} {first : List Form}
    (wellFormed : WellFormed place first) (outside : place = .topLevel)
    (options : Options) (second : List Form) :
    lowerAll options .topLevel false (first ++ second) =
      lowerAll options .topLevel false first ++
        lowerAll options .topLevel false second := by
  induction wellFormed with
  | nil => rfl
  | @trivia _ form _ isTrivia tail induction =>
      cases form with
      | blank | newline => simp [lowerAll, induction outside]
      | _ => simp [Form.isTrivia] at isTrivia
  | @literal _ form _ isLiteral tail induction =>
      cases form with
      | number | string => simp [lowerAll, induction outside]
      | _ => simp [Form.isLiteral] at isLiteral
  | equals tail induction => simp [lowerAll, induction outside]
  | call inner tail innerInduction induction =>
      simp [lowerAll, induction outside]
  | target next tail induction => simp [lowerAll, induction outside]
  | argumentVar => cases outside
  | @declaration name literal layout spacing forms _ _ _ _ induction =>
      -- The semicolon ends whatever the keyword has begun.
      have lowers (others : List Form) :
          lowerAll options .topLevel false
              (.var :: (layout ++ .name name :: .blank :: .equals ::
                (spacing ++ literal :: .semicolon :: others))) =
            lowerAll options .topLevel false
                (.var :: (layout ++ .name name :: .blank :: .equals ::
                  (spacing ++ [literal])) ++ [.semicolon]) ++
              lowerAll options .topLevel false others := by
        rw [← lowerAll_append_solid options .topLevel false _ (by simp)
          (by simp)]
        simp
      have joined :
          .var :: (layout ++ .name name :: .blank :: .equals ::
              (spacing ++ literal :: .semicolon :: forms)) ++ second =
            .var :: (layout ++ .name name :: .blank :: .equals ::
              (spacing ++ literal :: .semicolon :: (forms ++ second))) := by
        simp
      rw [joined, lowers, lowers, induction outside, List.append_assoc]

end Form

theorem lowerForms_append {first : List Form}
    (wellFormed : Form.WellFormed .topLevel first) (options : Options)
    (second : List Form) :
    lowerForms options (first ++ second) =
      lowerForms options first ++ lowerForms options second :=
  Form.lowerAll_append wellFormed rfl options second

theorem phrasesText_append (first second : List Phrase) :
    phrasesText (first ++ second) = phrasesText first ++ phrasesText second := by
  simp [phrasesText, Phrase.texts_eq_map]

theorem Grammatical.isName_getLast? {tokens : List Token}
    (grammatical : Grammatical tokens) :
    ∀ token ∈ tokens.getLast?, token.isName = false := by
  intro token isLast
  obtain ⟨before, tokensEq⟩ := List.getLast?_eq_some_iff.mp isLast
  have balanced := grammatical.closed_eq
  cases token with
  | identifier name =>
      by_cases callee : before.getLast? = some .leftParen
      · -- Nothing closes the call that the last name would open.
        obtain ⟨earlier, beforeEq⟩ := List.getLast?_eq_some_iff.mp callee
        have closed := grammatical.closed_le earlier
          [.leftParen, .identifier name] (by simp [tokensEq, beforeEq])
        simp [tokensEq, beforeEq] at balanced
        omega
      · obtain ⟨layout, literal, rest, follows, -⟩ :=
          grammatical.literal before name [] tokensEq callee
        simp at follows
  | var =>
      obtain ⟨layout, name, rest, follows, -⟩ :=
        grammatical.target before [] tokensEq
          (by simpa [tokensEq] using balanced.symm)
      simp at follows
  | _ => rfl

theorem scan_append {first second : String} {tokens : List Token}
    (scans : scan first = .ok tokens) (grammatical : Grammatical tokens)
    (apart : ∀ last ∈ first.toList.getLast?, last.isDigit →
      ∀ next ∈ second.toList.head?, next.isDigit = false) :
    scan (first ++ second) = (scan second).map (tokens ++ ·) := by
  rw [scan_eq_lexAll] at scans
  rw [scan_eq_lexAll, scan_eq_lexAll, String.toList_append]
  exact lexAll_append scans grammatical.isName_getLast? apart

theorem compile_of_scan_error {source : String} {error : ScanError}
    (fails : scan source = .error error) (options : Options) :
    compile options source = .error (.scan error) := by
  simp [compile, render, sourceForms, sourceTokens, fails, Except.mapError,
    Except.map]

theorem compile_of_scan_ok {source : String} {tokens : List Token}
    (scans : scan source = .ok tokens) (options : Options) :
    compile options source =
      ((readForms tokens).mapError .read).map fun forms =>
        phrasesText (lowerForms options forms) := by
  simp [compile, render, sourceForms, sourceTokens, scans, Except.mapError]

theorem exists_readForms_of_compile {options : Options}
    {source output : String} (compiles : compile options source = .ok output) :
    ∃ tokens forms, scan source = .ok tokens ∧
      readForms tokens = .ok forms ∧
        output = phrasesText (lowerForms options forms) := by
  cases scans : scan source with
  | error error =>
      rw [compile_of_scan_error scans] at compiles
      cases compiles
  | ok tokens =>
      rw [compile_of_scan_ok scans] at compiles
      cases reads : readForms tokens with
      | error error =>
          rw [reads] at compiles
          cases compiles
      | ok forms =>
          rw [reads] at compiles
          cases compiles
          exact ⟨tokens, forms, rfl, reads, rfl⟩

/-- Compilation is compositional: after a text that compiles, a text compiles
to what it compiles to alone or fails as it fails alone, unless a number would
run on from the one text into the other. -/
theorem compile_append (options : Options) {first second output : String}
    (compiles : compile options first = .ok output)
    (apart : ¬ ∃ last next, first.toList.getLast? = some last ∧ last.isDigit ∧
      second.toList.head? = some next ∧ next.isDigit) :
    compile options (first ++ second) =
      (compile options second).map (output ++ ·) := by
  obtain ⟨tokens, forms, scans, reads, rfl⟩ :=
    exists_readForms_of_compile compiles
  have numbersApart : ∀ last ∈ first.toList.getLast?, last.isDigit →
      ∀ next ∈ second.toList.head?, next.isDigit = false := by
    intro last isLast lastDigit next isNext
    by_contra nextDigit
    exact apart ⟨last, next, isLast, lastDigit, isNext, by simpa using nextDigit⟩
  have scanned :=
    scan_append scans (grammatical_of_readForms reads) numbersApart
  cases more : scan second with
  | error error =>
      rw [more] at scanned
      rw [compile_of_scan_error scanned, compile_of_scan_error more]
      rfl
  | ok others =>
      rw [more] at scanned
      rw [compile_of_scan_ok scanned, compile_of_scan_ok more,
        readForms_append reads]
      cases readForms others with
      | error error => rfl
      | ok otherForms =>
          have wellFormed := (wellFormed_of_readForms reads).1
          simp [Except.map, Except.mapError, lowerForms_append wellFormed,
            phrasesText_append]

theorem compile_append_declaration_call :
    compile ⟨false⟩ "var a 1" = .ok "a = 1;" ∧
      (¬ ∃ last next, "var a 1".toList.getLast? = some last ∧ last.isDigit ∧
        "\n(f \"x\")".toList.head? = some next ∧ next.isDigit) ∧
      compile ⟨false⟩ ("var a 1" ++ "\n(f \"x\")") =
        (compile ⟨false⟩ "\n(f \"x\")").map ("a = 1;" ++ ·) := by
  have compiles : compile ⟨false⟩ "var a 1" = .ok "a = 1;" := by cbv
  have apart : ¬ ∃ last next, "var a 1".toList.getLast? = some last ∧
      last.isDigit ∧ "\n(f \"x\")".toList.head? = some next ∧
        next.isDigit := by
    simp [Char.isDigit]
  exact ⟨compiles, apart, compile_append ⟨false⟩ compiles apart⟩

end ParenCall
