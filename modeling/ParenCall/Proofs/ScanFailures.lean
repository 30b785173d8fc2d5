import ParenCall.Proofs.ResumedScans

/-!
# Where a scan fails

A scan fails at one character of a text.  The text before this character can be
scanned, and the character begins no lexeme: it lies outside the alphabet, or it
is the quote of a string that is never closed.  No text has two such characters,
so the failure of a scan tells where the text has to be cut, and it is the first
of all faults in the text.

A quote ends every lexeme before it, and a closed string ends with its second
quote.  Hence the characters inside a closed string have no part in any failure.
-/

namespace ParenCall

/-- Whether a text has tokens. -/
def Scannable (source : String) : Prop :=
  ∃ tokens, scan source = .ok tokens

/-- A text divided at one of its characters. -/
@[ext] structure Cut where
  passed : String
  character : Char
  rest : String

namespace Cut

/-- The text that is divided. -/
def text (cut : Cut) : String :=
  cut.passed ++ String.singleton cut.character ++ cut.rest

/-- Whether a scan fails at the character of a cut. -/
def Fails (cut : Cut) : Prop :=
  Scannable cut.passed ∧
    (isLexical cut.character = false ∨
      cut.character = '"' ∧ '"' ∉ cut.rest.toList)

theorem toList_text (cut : Cut) :
    cut.text.toList =
      cut.passed.toList ++ cut.character :: cut.rest.toList := by
  simp [text]

end Cut

section Strays

theorem quotesPaired_cons_quote (rest : List Char) :
    QuotesPaired ('"' :: rest) ↔ ¬ QuotesPaired rest := by
  unfold QuotesPaired
  rw [List.count_cons_self]
  omega

theorem quotesPaired_cons {character : Char} (notQuote : character ≠ '"')
    (rest : List Char) :
    QuotesPaired (character :: rest) ↔ QuotesPaired rest := by
  unfold QuotesPaired
  rw [List.count_cons_of_ne notQuote]

/-- The strays of a text are those of its first part and those of its second
part, which may begin inside a string. -/
theorem strays_append_eq (quoted : Bool) (first rest : List Char) :
    strays quoted (first ++ rest) =
      (strays quoted first).map (fun stray => (stray.1, stray.2 ++ rest)) ++
        strays (if QuotesPaired first then quoted else !quoted) rest := by
  induction first generalizing quoted with
  | nil => rfl
  | cons character first induction =>
      by_cases isQuote : character = '"'
      · rw [isQuote, List.cons_append, strays, if_pos rfl, induction, strays,
          if_pos rfl]
        by_cases paired : QuotesPaired first <;>
          simp [quotesPaired_cons_quote, paired]
      · simp only [List.cons_append, strays, isQuote, if_false, induction,
          quotesPaired_cons isQuote]
        split <;> simp

theorem isLexical_of_mem_strays {quoted : Bool} {text : List Char}
    {stray : Char × List Char} (member : stray ∈ strays quoted text) :
    isLexical stray.1 = false := by
  induction text generalizing quoted with
  | nil => cases member
  | cons character text induction =>
      unfold strays at member
      split at member
      · exact induction member
      split at member
      · exact induction member
      · rename_i outside
        rcases List.mem_cons.mp member with rfl | later
        · simp only [Bool.or_eq_true, not_or] at outside
          simpa using outside.2
        · exact induction later

/-- A text can be scanned if it has no strays and all its strings are closed. -/
theorem scannable_iff (source : String) :
    Scannable source ↔
      strays false source.toList = [] ∧ QuotesPaired source.toList := by
  constructor
  · rintro ⟨tokens, scans⟩
    cases found : strays false source.toList with
    | nil =>
        obtain ⟨-, ⟨paired, -⟩ | ⟨-, fails⟩⟩ := scan_of_strays_nil found
        · exact ⟨rfl, paired⟩
        · rw [scans] at fails
          cases fails
    | cons first others =>
        have fails := (scan_of_strays_cons found).1
        rw [scans] at fails
        cases fails
  · rintro ⟨none, paired⟩
    obtain ⟨-, ⟨-, scans⟩ | ⟨unpaired, -⟩⟩ := scan_of_strays_nil none
    · exact scans
    · exact absurd paired unpaired

theorem Scannable.strays_append {passed : String} (scannable : Scannable passed)
    (rest : List Char) :
    strays false (passed.toList ++ rest) = strays false rest := by
  obtain ⟨none, paired⟩ := (scannable_iff passed).mp scannable
  rw [strays_append_eq, none, if_pos paired]
  rfl

end Strays

section Failures

variable {passed rest : String} {character : Char}

theorem strays_of_stray (scannable : Scannable passed)
    (outside : isLexical character = false) :
    strays false (passed ++ String.singleton character ++ rest).toList =
      (character, rest.toList) :: strays false rest.toList := by
  have notQuote : character ≠ '"' := by
    rintro rfl
    cases outside
  have split : (passed ++ String.singleton character ++ rest).toList =
      passed.toList ++ character :: rest.toList := by
    simp
  rw [split, scannable.strays_append, strays, if_neg notQuote]
  simp [outside]

theorem strays_of_unclosed (scannable : Scannable passed)
    (noQuote : '"' ∉ rest.toList) :
    strays false (passed ++ "\"" ++ rest).toList = [] ∧
      ¬ QuotesPaired (passed ++ "\"" ++ rest).toList := by
  obtain ⟨-, paired⟩ := (scannable_iff passed).mp scannable
  have split : (passed ++ "\"" ++ rest).toList =
      passed.toList ++ '"' :: rest.toList := by
    simp
  rw [split, scannable.strays_append]
  constructor
  · simpa [strays] using strays_quoted noQuote
  · have none := List.count_eq_zero.mpr noQuote
    unfold QuotesPaired at *
    rw [List.count_append, List.count_cons_self]
    omega

/-- The last quote of a text divides it. -/
theorem exists_last_quote {text : List Char} (member : '"' ∈ text) :
    ∃ passed rest, text = passed ++ '"' :: rest ∧ '"' ∉ rest := by
  obtain ⟨rest, passed, split, noQuote⟩ :=
    List.eq_append_cons_of_mem (List.mem_reverse.mpr member)
  refine ⟨passed.reverse, rest.reverse, ?_, by simpa using noQuote⟩
  rw [← List.reverse_reverse text, split]
  simp

theorem last_quote_unique {passed rest otherPassed otherRest : List Char}
    (noQuote : '"' ∉ rest) (otherNoQuote : '"' ∉ otherRest)
    (same : passed ++ '"' :: rest = otherPassed ++ '"' :: otherRest) :
    passed = otherPassed ∧ rest = otherRest := by
  rcases List.append_eq_append_iff.mp same with
    ⟨between, rfl, later⟩ | ⟨between, rfl, later⟩
  · cases between with
    | nil => simpa using later
    | cons first between =>
        cases later
        simp at noQuote
  · cases between with
    | nil => simpa [eq_comm] using later
    | cons first between =>
        cases later
        simp at otherNoQuote

/-- A scan reports the first of the faults of a text. -/
theorem scan_eq_error_iff_head?_faults (source : String) (error : ScanError) :
    scan source = .error error ↔ (faults source).head? = some error := by
  cases found : strays false source.toList with
  | nil =>
      obtain ⟨-, ⟨paired, tokens, scans⟩ | ⟨unpaired, fails⟩⟩ :=
        scan_of_strays_nil found
      · simp [faults, found, paired, scans]
      · simp [faults, found, unpaired, fails]
  | cons first others =>
      simp [faults, found, (scan_of_strays_cons found).1]

theorem scan_eq_unexpectedCharacter_iff_strays (source : String)
    (character : Char) :
    scan source = .error (.unexpectedCharacter character) ↔
      ∃ rest others,
        strays false source.toList = (character, rest) :: others := by
  rw [scan_eq_error_iff_head?_faults]
  cases found : strays false source.toList with
  | nil =>
      by_cases paired : QuotesPaired source.toList <;>
        simp [faults, found, paired]
  | cons first others => simp [faults, found, Prod.ext_iff]

theorem scan_eq_unterminatedString_iff_strays (source : String) :
    scan source = .error .unterminatedString ↔
      strays false source.toList = [] ∧ ¬ QuotesPaired source.toList := by
  rw [scan_eq_error_iff_head?_faults]
  cases found : strays false source.toList with
  | nil =>
      by_cases paired : QuotesPaired source.toList <;>
        simp [faults, found, paired]
  | cons first others => simp [faults, found]

/-- A scan reports a character exactly if the character lies outside the
alphabet and the text before it can be scanned. -/
theorem scan_eq_unexpectedCharacter_iff (source : String) (character : Char) :
    scan source = .error (.unexpectedCharacter character) ↔
      ∃ passed rest, source = passed ++ String.singleton character ++ rest ∧
        Scannable passed ∧ isLexical character = false := by
  constructor
  · intro fails
    obtain ⟨passed, tokens, scans, sourceEq⟩ :=
      exists_passed_of_unexpectedCharacter fails
    obtain ⟨rest, others, found⟩ :=
      (scan_eq_unexpectedCharacter_iff_strays source character).mp fails
    have member : (character, rest) ∈ strays false source.toList := by
      rw [found]
      exact List.mem_cons_self
    exact ⟨passed, leftover source, sourceEq, ⟨tokens, scans⟩,
      isLexical_of_mem_strays member⟩
  · rintro ⟨passed, rest, rfl, scannable, outside⟩
    rw [scan_eq_unexpectedCharacter_iff_strays]
    exact ⟨_, _, strays_of_stray scannable outside⟩

/-- A scan reports an unclosed string exactly if the text before some quote can
be scanned and no other quote comes after it. -/
theorem scan_eq_unterminatedString_iff (source : String) :
    scan source = .error .unterminatedString ↔
      ∃ passed rest, source = passed ++ "\"" ++ rest ∧ Scannable passed ∧
        '"' ∉ rest.toList := by
  rw [scan_eq_unterminatedString_iff_strays]
  constructor
  · rintro ⟨none, unpaired⟩
    have member : '"' ∈ source.toList := by
      by_contra noQuote
      exact unpaired (by simp [QuotesPaired, List.count_eq_zero.mpr noQuote])
    obtain ⟨passed, rest, split, noQuote⟩ := exists_last_quote member
    refine ⟨.ofList passed, .ofList rest, ?_, ?_, by simpa using noQuote⟩
    · apply String.toList_inj.mp
      simp [split]
    · rw [split, strays_append_eq] at none
      rw [scannable_iff, String.toList_ofList]
      refine ⟨List.map_eq_nil_iff.mp (List.append_eq_nil_iff.mp none).1, ?_⟩
      have noMore := List.count_eq_zero.mpr noQuote
      unfold QuotesPaired at *
      rw [split, List.count_append, List.count_cons_self] at unpaired
      omega
  · rintro ⟨passed, rest, rfl, scannable, noQuote⟩
    exact strays_of_unclosed scannable noQuote

/-- A failing cut is seen in the strays of its text: it is the first of them,
or there is none and the quotes end with the one at the cut. -/
theorem Cut.Fails.strays_text {cut : Cut} (fails : cut.Fails) :
    strays false cut.text.toList =
        (cut.character, cut.rest.toList) :: strays false cut.rest.toList ∨
      strays false cut.text.toList = [] ∧ cut.character = '"' ∧
        '"' ∉ cut.rest.toList := by
  obtain ⟨scannable, outside | ⟨isQuote, noQuote⟩⟩ := fails
  · exact Or.inl (strays_of_stray scannable outside)
  · have none := (strays_of_unclosed scannable noQuote).1
    refine Or.inr ⟨?_, isQuote, noQuote⟩
    rw [Cut.text, isQuote]
    exact none

/-- A text fails at one character only. -/
theorem Cut.Fails.unique {first second : Cut} (fails : first.Fails)
    (otherFails : second.Fails) (same : first.text = second.text) :
    first = second := by
  have split : first.passed.toList ++ first.character :: first.rest.toList =
      second.passed.toList ++ second.character :: second.rest.toList := by
    rw [← Cut.toList_text, same, Cut.toList_text]
  rcases fails.strays_text with strayed | ⟨none, isQuote, noQuote⟩ <;>
    rcases otherFails.strays_text with
      otherStrayed | ⟨otherNone, otherIsQuote, otherNoQuote⟩
  · rw [same, otherStrayed] at strayed
    simp only [List.cons.injEq, Prod.mk.injEq, String.toList_inj] at strayed
    obtain ⟨⟨characterEq, restEq⟩, -⟩ := strayed
    rw [characterEq, restEq] at split
    exact Cut.ext (String.toList_inj.mp (List.append_cancel_right split))
      characterEq.symm restEq.symm
  · rw [same, otherNone] at strayed
    cases strayed
  · rw [same, otherStrayed] at none
    cases none
  · rw [isQuote, otherIsQuote] at split
    obtain ⟨passedEq, restEq⟩ := last_quote_unique noQuote otherNoQuote split
    exact Cut.ext (String.toList_inj.mp passedEq)
      (isQuote.trans otherIsQuote.symm) (String.toList_inj.mp restEq)

end Failures

section ClosedStrings

theorem Lexeme.goesOn_quote (lexeme : Lexeme) : lexeme.goesOn '"' = false := by
  cases lexeme <;> rfl

/-- A quote ends the lexeme before it. -/
theorem lexemes_append_quote {text : List Char}
    (regular : ∀ lexeme ∈ lexemes text, lexeme.Regular) (rest : List Char) :
    lexemes (text ++ '"' :: rest) = lexemes text ++ lexemes ('"' :: rest) := by
  induction text using lexemes.induct with
  | case1 => simp
  | case2 character following induction =>
      rw [lexemes_cons] at regular ⊢
      have firstRegular : (firstLexeme character following).1.Regular :=
        regular _ (by simp)
      have ends : (firstLexeme character following).1.EndsBefore
          ((firstLexeme character following).2 ++ '"' :: rest) := by
        intro next isHead
        have stops := endsBefore_firstLexeme character following
        cases left : (firstLexeme character following).2 with
        | nil =>
            rw [left] at isHead
            cases isHead
            exact Lexeme.goesOn_quote _
        | cons other others =>
            rw [left] at isHead stops
            exact stops next isHead
      rw [← characters_append_firstLexeme, List.append_assoc,
        lexemes_characters_append firstRegular ends,
        induction fun lexeme member => regular lexeme (by simp [member])]
      rfl

/-- A closed string is a token, whatever its characters, and the text after it
is scanned as it is scanned alone. -/
theorem scan_append_string {passed content : String} {tokens : List Token}
    (scans : scan passed = .ok tokens) (noQuote : '"' ∉ content.toList)
    (rest : String) :
    scan (passed ++ "\"" ++ content ++ "\"" ++ rest) =
      (scan rest).map (tokens ++ .string content :: ·) := by
  have split : (passed ++ "\"" ++ content ++ "\"" ++ rest).toList =
      passed.toList ++ '"' :: (content.toList ++ '"' :: rest.toList) := by
    simp
  have scanned : (lexemes passed.toList).mapM Lexeme.token = .ok tokens := by
    rw [← lexAll_eq_mapM_lexemes, ← scan_eq_lexAll, scans]
  rw [scan_eq_lexAll, scan_eq_lexAll, lexAll_eq_mapM_lexemes,
    lexAll_eq_mapM_lexemes, split, lexemes_append_quote (regular_of_scan scans),
    lexemes_cons, firstLexeme_string noQuote, List.mapM_append, scanned,
    List.mapM_cons]
  simp only [Lexeme.token, String.ofList_toList]
  cases (lexemes rest.toList).mapM Lexeme.token <;> rfl

end ClosedStrings

/-- Scans fail exactly where a text before can be scanned and the next character
lies outside the alphabet or is the quote of a string that is not closed.  There
is one such place at most, and the failure is the first fault of the text.  A
closed string is never part of a failure. -/
theorem scan_eq_error_iff_exists_cut (source : String) :
    (∀ character, scan source = .error (.unexpectedCharacter character) ↔
        ∃ passed rest, source = passed ++ String.singleton character ++ rest ∧
          Scannable passed ∧ isLexical character = false) ∧
      (scan source = .error .unterminatedString ↔
        ∃ passed rest, source = passed ++ "\"" ++ rest ∧ Scannable passed ∧
          '"' ∉ rest.toList) ∧
      { cut : Cut | cut.text = source ∧ cut.Fails }.Subsingleton ∧
      (∀ error, scan source = .error error ↔
        (faults source).head? = some error) ∧
      ∀ passed tokens content rest, scan passed = .ok tokens →
        '"' ∉ content.toList →
          source = passed ++ "\"" ++ content ++ "\"" ++ rest →
            scan source = (scan rest).map (tokens ++ .string content :: ·) := by
  refine ⟨scan_eq_unexpectedCharacter_iff source,
    scan_eq_unterminatedString_iff source, ?_,
    scan_eq_error_iff_head?_faults source, ?_⟩
  · rintro first ⟨firstText, fails⟩ second ⟨secondText, otherFails⟩
    exact fails.unique otherFails (firstText.trans secondText.symm)
  · rintro passed tokens content rest scans noQuote rfl
    exact scan_append_string scans noQuote rest

theorem scan_eq_error_iff_exists_cut_stray_after_string :
    scan "f" = .ok [.identifier "f"] ∧ '"' ∉ "é#".toList ∧
      scan "f\"é#\"@(" = .error (.unexpectedCharacter '@') ∧
        scan "f\"é#\"@(" =
          (scan "@(").map ([.identifier "f"] ++ .string "é#" :: ·) := by
  have scans : scan "f" = .ok [.identifier "f"] := by cbv
  have noQuote : '"' ∉ "é#".toList := by decide
  obtain ⟨-, -, -, -, closed⟩ := scan_eq_error_iff_exists_cut "f\"é#\"@("
  exact ⟨scans, noQuote, by cbv, closed "f" _ "é#" "@(" scans noQuote rfl⟩

end ParenCall
