import ParenCall.Proofs.CanonicalTokens

/-!
# Resumed scans

A scanner that has failed can be asked again and goes on behind what it has
read.  Its offsets still count the bytes of the whole source, and the lexeme it
stopped at is still marked; yet it answers as a new scanner would answer on the
characters that are left.

What a failed scan leaves can be told from the text alone.  The first character
that stands in no string and begins no lexeme is reported, and the text after
it is left; a string that is never closed leaves nothing.  So successive scans
report all these characters in order, then an unclosed string if there is one,
and after the first scan that does not fail there is nothing more to scan.
-/

namespace ParenCall

/-- Whether a character can stand in a text outside its strings. -/
def isLexical (character : Char) : Bool :=
  character = '(' || character = ')' || character = '"' ||
    isBlank character || character.isDigit || character.isAlpha

/-- The characters that stand in no string and belong to no lexeme, each with
the characters after it.  `quoted` holds inside a string. -/
def strays : Bool → List Char → List (Char × List Char)
  | _, [] => []
  | quoted, character :: rest =>
      if character = '"' then
        strays (!quoted) rest
      else if quoted || isLexical character then
        strays quoted rest
      else
        (character, rest) :: strays quoted rest

instance (text : List Char) : Decidable (QuotesPaired text) :=
  inferInstanceAs (Decidable (text.count '"' % 2 = 0))

/-- The failures in a text: its strays, and a last string that is not closed. -/
def faults (source : String) : List ScanError :=
  (strays false source.toList).map (.unexpectedCharacter ·.1) ++
    if QuotesPaired source.toList then [] else [.unterminatedString]

/-- The text after the first stray. -/
def afterFirstStray (source : String) : String :=
  .ofList (((strays false source.toList).head?.map Prod.snd).getD [])

/-- The text that a scan leaves for the next one. -/
def leftover (source : String) : String :=
  match scan source with
  | .error (.unexpectedCharacter _) => afterFirstStray source
  | _ => ""

section Strays

theorem strays_append {quoted : Bool} {first : List Char}
    (plain : ∀ character ∈ first,
      character ≠ '"' ∧ (quoted || isLexical character))
    (rest : List Char) :
    strays quoted (first ++ rest) = strays quoted rest := by
  induction first with
  | nil => rfl
  | cons character first induction =>
      obtain ⟨notQuote, lexical⟩ := plain character (by simp)
      rw [List.cons_append, strays, if_neg notQuote, if_pos lexical]
      exact induction fun other member => plain other (by simp [member])

theorem strays_characters_append {lexeme : Lexeme} {token : Token}
    (regular : lexeme.Regular) (reads : lexeme.token = .ok token)
    (rest : List Char) :
    strays false (lexeme.characters ++ rest) = strays false rest := by
  cases lexeme with
  | word letters =>
      apply strays_append
      intro letter member
      have isAlpha := regular.2 letter member
      exact ⟨ne_quote_of_isAlpha isAlpha, by simp [isLexical, isAlpha]⟩
  | number digits =>
      apply strays_append
      intro digit member
      have isDigit := regular.2 digit member
      exact ⟨ne_quote_of_isDigit isDigit, by simp [isLexical, isDigit]⟩
  | string content =>
      have quoted := @strays_append true content
        (fun character member => ⟨fun same => regular (same ▸ member), rfl⟩)
        ('"' :: rest)
      simpa [Lexeme.characters, strays] using quoted
  | sign character =>
      have lexical : isLexical character := by
        by_contra stray
        simp only [isLexical, Bool.or_eq_true, decide_eq_true_eq,
          not_or] at stray
        obtain ⟨⟨⟨⟨⟨notLeft, notRight⟩, notQuote⟩, notBlank⟩, -⟩, -⟩ := stray
        have notNewline : character ≠ '\n' := by
          rintro rfl
          exact notBlank rfl
        simp [Lexeme.token, notNewline, notLeft, notRight, notQuote,
          notBlank] at reads
      apply strays_append
      simpa [Lexeme.characters, lexical] using regular.1

theorem strays_quoted {rest : List Char} (noQuote : '"' ∉ rest) :
    strays true rest = [] := by
  have passed := @strays_append true rest
    (fun character member => ⟨fun same => noQuote (same ▸ member), rfl⟩) []
  simpa [strays] using passed

/-- Nothing before the first stray is a stray or the opening of a string, and
all other strays come after it. -/
theorem exists_passed_of_strays_cons {characters rest : List Char}
    {quoted : Bool} {stray : Char} {others : List (Char × List Char)}
    (found : strays quoted characters = (stray, rest) :: others) :
    ∃ passed, characters = passed ++ stray :: rest ∧ stray ≠ '"' ∧
      strays quoted passed = [] ∧ passed.count '"' % 2 = quoted.toNat ∧
        others = strays false rest := by
  induction characters generalizing quoted with
  | nil => simp [strays] at found
  | cons character characters induction =>
      unfold strays at found
      split at found
      · rename_i isQuote
        obtain ⟨passed, rfl, notQuote, none, parity, later⟩ := induction found
        refine ⟨character :: passed, rfl, notQuote, ?_, ?_, later⟩
        · rw [strays, if_pos isQuote, none]
        · rw [isQuote, List.count_cons_self]
          cases quoted <;> simp_all <;> omega
      split at found
      · rename_i notQuote lexical
        obtain ⟨passed, rfl, strayNotQuote, none, parity, later⟩ :=
          induction found
        refine ⟨character :: passed, rfl, strayNotQuote, ?_, ?_, later⟩
        · rw [strays, if_neg notQuote, if_pos lexical, none]
        · rw [List.count_cons_of_ne notQuote, parity]
      · rename_i notQuote lexical
        simp only [List.cons.injEq, Prod.mk.injEq] at found
        obtain ⟨⟨rfl, rfl⟩, rfl⟩ := found
        have outside : quoted = false := by
          cases quoted <;> simp_all
        subst outside
        exact ⟨[], rfl, notQuote, rfl, rfl, rfl⟩

theorem quotesPaired_characters_append {lexeme : Lexeme}
    (regular : lexeme.Regular) (rest : List Char) :
    QuotesPaired (lexeme.characters ++ rest) ↔ QuotesPaired rest := by
  have paired := regular.quotesPaired
  unfold QuotesPaired at *
  rw [List.count_append]
  omega

end Strays

section Lexing

/-- A lexeme fails at a quote that is never closed, or at a stray. -/
theorem lexToken_error {character : Char} {rest following : List Char}
    {error : ScanError}
    (fails : lexToken character rest = (.error error, following)) :
    (error = .unterminatedString ∧ following = [] ∧ character = '"' ∧
        '"' ∉ rest) ∨
      (error = .unexpectedCharacter character ∧ following = rest ∧
        character ≠ '"' ∧ isLexical character = false) := by
  unfold lexToken at fails
  split at fails
  · cases fails
  split at fails
  · cases fails
  split at fails
  · cases fails
  split at fails
  · rename_i isQuote
    unfold lexString at fails
    split at fails
    · rename_i unclosed
      cases fails
      refine Or.inl ⟨rfl, rfl, isQuote, ?_⟩
      intro member
      have other := List.dropWhile_eq_nil_iff.mp unclosed _ member
      simp at other
    · cases fails
  split at fails
  · cases fails
  split at fails
  · cases fails
  split at fails
  · cases fails
  · cases fails
    right
    simp_all [isLexical]

/-- A token is what the first lexeme of a text stands for. -/
theorem lexToken_ok {character : Char} {rest following : List Char}
    {token : Token}
    (lexes : lexToken character rest = (.ok token, following)) :
    ∃ lexeme : Lexeme, lexeme.Regular ∧ lexeme.token = .ok token ∧
      character :: rest = lexeme.characters ++ following := by
  obtain ⟨same, rests⟩ := lexToken_eq_firstLexeme character rest
  rw [lexes] at same rests
  refine ⟨(firstLexeme character rest).1, ?_, same.symm, ?_⟩
  · rcases regular_firstLexeme character rest with regular | ⟨unclosed, -, -⟩
    · exact regular
    · rw [unclosed] at same
      cases same
  · have followingEq : following = (firstLexeme character rest).2 :=
      rests token rfl
    rw [followingEq, characters_append_firstLexeme]

/-- Characters without strays are lexed to the end, unless a string is not
closed. -/
theorem lexAll_of_strays_nil {characters : List Char}
    (none : strays false characters = []) :
    (QuotesPaired characters ∧
        ∃ tokens, lexAll characters = (.ok tokens, [])) ∨
      (¬ QuotesPaired characters ∧
        lexAll characters = (.error .unterminatedString, [])) := by
  induction characters using lexAll.induct with
  | case1 => exact Or.inl ⟨rfl, [], lexAll_nil⟩
  | case2 character rest error following fails =>
      rcases lexToken_error fails with
        ⟨rfl, rfl, rfl, noQuote⟩ | ⟨-, -, notQuote, stray⟩
      · have unpaired : ¬ QuotesPaired ('"' :: rest) := by
          simp [QuotesPaired, List.count_eq_zero.mpr noQuote]
        exact Or.inr ⟨unpaired, lexAll_cons_of_error fails⟩
      · simp [strays, notQuote, stray] at none
  | case3 character rest token following reads induction =>
      obtain ⟨lexeme, regular, lexemeToken, spelled⟩ := lexToken_ok reads
      rw [spelled, strays_characters_append regular lexemeToken] at none
      rw [lexAll_cons_of_ok reads, spelled,
        quotesPaired_characters_append regular]
      rcases induction none with ⟨paired, tokens, lexes⟩ | ⟨unpaired, fails⟩
      · exact Or.inl ⟨paired, token :: tokens, by rw [lexes]; rfl⟩
      · exact Or.inr ⟨unpaired, by rw [fails]; rfl⟩

/-- Characters are lexed up to the first stray, which is reported. -/
theorem lexAll_of_strays_cons {characters rest : List Char} {stray : Char}
    {others : List (Char × List Char)}
    (found : strays false characters = (stray, rest) :: others) :
    lexAll characters = (.error (.unexpectedCharacter stray), rest) := by
  induction characters using lexAll.induct with
  | case1 => simp [strays] at found
  | case2 character following error left fails =>
      rcases lexToken_error fails with
        ⟨-, -, rfl, noQuote⟩ | ⟨rfl, rfl, notQuote, isStray⟩
      · simp [strays, strays_quoted noQuote] at found
      · simp only [strays, notQuote, isStray, Bool.false_or, if_false,
          Bool.false_eq_true, List.cons.injEq, Prod.mk.injEq] at found
        obtain ⟨⟨rfl, rfl⟩, -⟩ := found
        exact lexAll_cons_of_error fails
  | case3 character following token left reads induction =>
      obtain ⟨lexeme, regular, lexemeToken, spelled⟩ := lexToken_ok reads
      rw [spelled, strays_characters_append regular lexemeToken] at found
      rw [lexAll_cons_of_ok reads, induction found]
      rfl

end Lexing

section Resuming

variable {source : String}

theorem scan_of_strays_cons {rest : List Char} {stray : Char}
    {others : List (Char × List Char)}
    (found : strays false source.toList = (stray, rest) :: others) :
    scan source = .error (.unexpectedCharacter stray) ∧
      leftover source = .ofList rest := by
  have fails : scan source = .error (.unexpectedCharacter stray) := by
    rw [scan_eq_lexAll, lexAll_of_strays_cons found]
  exact ⟨fails, by simp [leftover, fails, afterFirstStray, found]⟩

theorem scan_of_strays_nil (none : strays false source.toList = []) :
    leftover source = "" ∧
      ((QuotesPaired source.toList ∧ ∃ tokens, scan source = .ok tokens) ∨
        (¬ QuotesPaired source.toList ∧
          scan source = .error .unterminatedString)) := by
  rcases lexAll_of_strays_nil none with
    ⟨paired, tokens, lexes⟩ | ⟨unpaired, fails⟩
  · have scans : scan source = .ok tokens := by rw [scan_eq_lexAll, lexes]
    exact ⟨by simp [leftover, scans], Or.inl ⟨paired, tokens, scans⟩⟩
  · have scans : scan source = .error .unterminatedString := by
      rw [scan_eq_lexAll, fails]
    exact ⟨by simp [leftover, scans], Or.inr ⟨unpaired, scans⟩⟩

/-- A scan leaves the text whose characters lexing leaves. -/
theorem toList_leftover (source : String) :
    (leftover source).toList = (lexAll source.toList).2 := by
  cases found : strays false source.toList with
  | nil =>
      rw [(scan_of_strays_nil found).1]
      rcases lexAll_of_strays_nil found with ⟨-, tokens, lexes⟩ | ⟨-, fails⟩
      · rw [lexes]
        rfl
      · rw [fails]
        rfl
  | cons first others =>
      rw [(scan_of_strays_cons found).2, lexAll_of_strays_cons found,
        String.toList_ofList]

namespace Scanner

/-- A scanner that stands anywhere in its source answers as a new scanner on
the remaining text, and leaves what that one leaves. -/
theorem Stands.scan {scanner : Scanner} {passed lexeme : List Char}
    (stands : scanner.Stands passed lexeme) :
    scanner.scan.1 = ParenCall.scan (.ofList scanner.remaining) ∧
      scanner.scan.2.remaining =
        (leftover (.ofList scanner.remaining)).toList ∧
      ∃ passed lexeme, scanner.scan.2.Stands passed lexeme := by
  obtain ⟨answer, remaining, stays⟩ := stands.collect #[]
  refine ⟨?_, ?_, stays⟩
  · rw [scan_eq_lexAll, String.toList_ofList]
    unfold Scanner.scan
    rw [answer]
    cases (lexAll scanner.remaining).1 <;> rfl
  · rw [toList_leftover, String.toList_ofList]
    exact remaining

theorem Stands.scans {scanner : Scanner} {passed lexeme : List Char}
    (stands : scanner.Stands passed lexeme) (times : Nat) :
    scanner.scans times =
      (List.iterate leftover (.ofList scanner.remaining) times).map
        ParenCall.scan := by
  induction times generalizing scanner passed lexeme with
  | zero => rfl
  | succ times induction =>
      obtain ⟨answer, remaining, _, _, standing⟩ := stands.scan
      rw [Scanner.scans, answer, induction standing, remaining,
        String.ofList_toList, List.iterate, List.map_cons]

end Scanner

theorem map_scan_iterate_leftover_empty (times : Nat) :
    (List.iterate leftover "" times).map scan =
      List.replicate times (.ok []) := by
  have scans : scan "" = .ok [] := by
    rw [scan_eq_lexAll, String.toList_empty, lexAll_nil]
  have leaves : leftover "" = "" := by simp [leftover, scans]
  induction times with
  | zero => rfl
  | succ times induction =>
      rw [List.iterate, leaves, List.map_cons, scans, induction,
        List.replicate_succ]

/-- Scanning on after each failure meets every fault of a text in order, then
succeeds, and finds no more tokens after that. -/
theorem exists_map_scan_iterate_leftover (source : String) :
    ∃ tokens, (¬ QuotesPaired source.toList → tokens = []) ∧
      ∀ more,
        (List.iterate leftover source ((faults source).length + 1 + more)).map
            scan =
          (faults source).map .error ++
            .ok tokens :: List.replicate more (.ok []) := by
  induction found : strays false source.toList generalizing source with
  | nil =>
      obtain ⟨leaves, ⟨paired, tokens, scans⟩ | ⟨unpaired, scans⟩⟩ :=
        scan_of_strays_nil found
      · have faultsEq : faults source = [] := by simp [faults, found, paired]
        refine ⟨tokens, absurd paired, ?_⟩
        intro more
        rw [faultsEq, List.length_nil, Nat.zero_add, Nat.add_comm,
          List.iterate, List.map_cons, leaves, scans,
          map_scan_iterate_leftover_empty]
        rfl
      · have faultsEq : faults source = [.unterminatedString] := by
          simp [faults, found, unpaired]
        refine ⟨[], fun _ => rfl, ?_⟩
        intro more
        have count : [ScanError.unterminatedString].length + 1 + more =
            more + 1 + 1 := by
          simp
          omega
        rw [faultsEq, count, List.iterate, List.map_cons, leaves, scans,
          map_scan_iterate_leftover_empty, List.replicate_succ]
        rfl
  | cons first others induction =>
      obtain ⟨stray, rest⟩ := first
      obtain ⟨scans, leaves⟩ := scan_of_strays_cons found
      obtain ⟨passed, sourceEq, notQuote, -, parity, rfl⟩ :=
        exists_passed_of_strays_cons found
      have samePairing : QuotesPaired source.toList ↔
          QuotesPaired (String.ofList rest).toList := by
        rw [String.toList_ofList, sourceEq]
        unfold QuotesPaired
        rw [List.count_append, List.count_cons_of_ne notQuote]
        simp at parity
        omega
      have faultsEq : faults source =
          .unexpectedCharacter stray :: faults (.ofList rest) := by
        simp [faults, found, samePairing]
      obtain ⟨tokens, unclosed, answers⟩ :=
        induction (.ofList rest) (by rw [String.toList_ofList])
      refine ⟨tokens, fun unpaired => unclosed (mt samePairing.mpr unpaired),
        ?_⟩
      intro more
      have count : (faults source).length + 1 + more =
          (faults (.ofList rest)).length + 1 + more + 1 := by
        rw [faultsEq, List.length_cons]
        omega
      rw [count, List.iterate, List.map_cons, scans, leaves, answers more,
        faultsEq]
      rfl

/-- An unexpected character is the first stray of a text.  What comes before it
can be scanned, and what comes after it is left. -/
theorem exists_passed_of_unexpectedCharacter {character : Char}
    (fails : scan source = .error (.unexpectedCharacter character)) :
    ∃ passed tokens, scan passed = .ok tokens ∧
      source = passed ++ String.singleton character ++ leftover source := by
  cases found : strays false source.toList with
  | nil =>
      obtain ⟨-, ⟨-, tokens, scans⟩ | ⟨-, scans⟩⟩ := scan_of_strays_nil found
      · rw [scans] at fails
        cases fails
      · rw [scans] at fails
        cases fails
  | cons first others =>
      obtain ⟨stray, rest⟩ := first
      obtain ⟨scans, leaves⟩ := scan_of_strays_cons found
      rw [scans] at fails
      cases fails
      obtain ⟨passed, sourceEq, -, none, parity, -⟩ :=
        exists_passed_of_strays_cons found
      have nonePassed : strays false (String.ofList passed).toList = [] := by
        rw [String.toList_ofList, none]
      obtain ⟨-, ⟨-, tokens, passes⟩ | ⟨unpaired, -⟩⟩ :=
        scan_of_strays_nil nonePassed
      · refine ⟨.ofList passed, tokens, passes, ?_⟩
        apply String.toList_inj.mp
        simp [leaves, sourceEq]
      · rw [String.toList_ofList] at unpaired
        exact absurd parity unpaired

/-- Scans that are resumed after failures answer as new scanners on the text
that each scan leaves.  After an unexpected character this is the text after
that character, and after any other answer it is empty.  So the failing scans
report the strays of the source in order and then a string that is not closed;
the next scan succeeds, and all scans after it find nothing. -/
theorem Scanner.scans_eq_fresh_scans (source : String) :
    (∀ times, (ofSource source).scans times =
        (List.iterate leftover source times).map ParenCall.scan) ∧
      (∀ text character,
        ParenCall.scan text = .error (.unexpectedCharacter character) →
          ∃ passed tokens, ParenCall.scan passed = .ok tokens ∧
            text = passed ++ String.singleton character ++ leftover text) ∧
      ∃ tokens, (¬ QuotesPaired source.toList → tokens = []) ∧
        ∀ more,
          (ofSource source).scans ((faults source).length + 1 + more) =
            (faults source).map .error ++
              .ok tokens :: List.replicate more (.ok []) := by
  have resumes : ∀ times, (ofSource source).scans times =
      (List.iterate leftover source times).map ParenCall.scan := by
    intro times
    rw [(stands_ofSource source).scans]
    simp [ofSource]
  refine ⟨resumes, fun text character =>
    exists_passed_of_unexpectedCharacter, ?_⟩
  obtain ⟨tokens, unclosed, answers⟩ := exists_map_scan_iterate_leftover source
  refine ⟨tokens, unclosed, ?_⟩
  intro more
  rw [resumes, answers]

theorem Scanner.scans_eq_fresh_scans_stray_between_strings :
    (ParenCall.scan "x\"é#\"@1" = .error (.unexpectedCharacter '@') ∧
      ∃ passed tokens, ParenCall.scan passed = .ok tokens ∧
        "x\"é#\"@1" =
          passed ++ String.singleton '@' ++ leftover "x\"é#\"@1") ∧
      ¬ QuotesPaired "é\"#\"@1\"x".toList ∧
        (ofSource "é\"#\"@1\"x").scans 5 =
          [.error (.unexpectedCharacter 'é'), .error (.unexpectedCharacter '@'),
            .error .unterminatedString, .ok [], .ok []] := by
  have fails : ParenCall.scan "x\"é#\"@1" =
      .error (.unexpectedCharacter '@') := by
    cbv
  have unpaired : ¬ QuotesPaired "é\"#\"@1\"x".toList := by decide
  refine ⟨⟨fails, (scans_eq_fresh_scans "").2.1 _ _ fails⟩, unpaired, ?_⟩
  obtain ⟨tokens, unclosed, answers⟩ :=
    (scans_eq_fresh_scans "é\"#\"@1\"x").2.2
  have answered := answers 1
  rw [unclosed unpaired] at answered
  exact answered

end Resuming

end ParenCall
