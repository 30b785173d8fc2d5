import Mathlib.Logic.Function.Iterate
import Mathlib.Tactic.MkIffOfInductiveProp
import ParenCall.Proofs.CanonicalTokens

/-!
# Valid offsets

A scanner counts bytes and reads characters, and a character has up to four
bytes.  Offsets that do not fit the source would do harm in three places: the
width of a character cannot be taken from an offset smaller than it, a text
cannot be cut out at an offset inside a character, and what is cut out might
not be what has been read.

This file tells a scan with checks at all these places.  It reads one character
at a time.  The cursor is set from where this character stands in the source,
and the start by a subtraction.  Every state that the scan comes to is put to
the test, and every text that it cuts out is compared with the characters that
it has read.  No loop goes on unless it has read something, so the scan ends.
Where a check fails, there is no answer.

No check ever fails, however many scans there have been before and however many
of them have failed.  The scan with checks always has an answer, and it is that
of the scan without checks.  What carries the proof is that the offsets count
the bytes of the characters read, so that every check is a fact about the three
parts into which they divide the source.
-/

namespace ParenCall

namespace Scanner

open String (utf8Len)

section Checks

/-- Whether the offsets of a scanner fit its source. -/
@[mk_iff]
structure OffsetsValid (scanner : Scanner) : Prop where
  start_le_cursor : scanner.start ≤ scanner.cursor
  cursor_le_end : scanner.cursor ≤ scanner.source.rawEndPos
  /-- The start is not inside a character. -/
  start_isValid : scanner.start.IsValid scanner.source
  /-- Nor is the cursor. -/
  cursor_isValid : scanner.cursor.IsValid scanner.source
  /-- The characters to come are those of the source from the cursor on. -/
  remaining_eq : scanner.remaining =
    (scanner.source.sliceFrom
      (scanner.source.pos scanner.cursor cursor_isValid)).copy.toList

instance (scanner : Scanner) : Decidable scanner.OffsetsValid :=
  decidable_of_iff' _ (offsetsValid_iff scanner)

/-- The scanner, if its offsets are valid. -/
def valid? (scanner : Scanner) : Option Scanner :=
  if scanner.OffsetsValid then some scanner else none

/-- The byte offset of the next character, told from the characters to come
and not from the cursor. -/
def nextOffset (scanner : Scanner) : Nat :=
  scanner.source.utf8ByteSize - utf8Len scanner.remaining

/-- Reads the next character and sets the cursor past it. -/
def advance? (scanner : Scanner) (character : Char) (rest : List Char) :
    Option Scanner :=
  { scanner with
    cursor := ⟨scanner.nextOffset + character.utf8Size⟩
    remaining := rest }.valid?

/-- Sets the start to the character just read, unless the cursor is too small
to take the width of the character away from it. -/
def startAt? (scanner : Scanner) (character : Char) : Option Scanner :=
  if character.utf8Size ≤ scanner.cursor.byteIdx then
    { scanner with
      start := ⟨scanner.cursor.byteIdx - character.utf8Size⟩ }.valid?
  else
    none

/-- Cuts out the text between the offsets, if they are in order and none of them
is inside a character.  The text has to consist of the characters read for the
lexeme. -/
def cut? (scanner : Scanner) (read : List Char) : Option String := do
  let first ← scanner.source.pos? scanner.start
  let last ← scanner.source.pos? scanner.cursor
  let text ← scanner.source.slice? first last
  if text.copy.toList = read then some text.copy else none

/-- Reads on, one character at a time, while the characters are of a class, and
cuts the lexeme out.  `read` holds the characters read for it. -/
def takeWhile? (accepts : Char → Bool) (read : List Char)
    (scanner : Scanner) : Option (String × Scanner) :=
  match scanner.remaining with
  | [] => do
      let text ← scanner.cut? read
      return (text, scanner)
  | character :: rest =>
      if accepts character then do
        let next ← scanner.advance? character rest
        -- Every round leaves fewer characters.
        if next.remaining.length < scanner.remaining.length then
          next.takeWhile? accepts (read ++ [character])
        else
          none
      else do
        let text ← scanner.cut? read
        return (text, scanner)
termination_by scanner.remaining.length

/-- Reads the rest of a string whose opening quote has been read.  What is cut
out is what stands between the quotes. -/
def string? (scanner : Scanner) :
    Option (Except ScanError Token × Scanner) := do
  let opened ← { scanner with start := scanner.cursor }.valid?
  let (content, next) ← opened.takeWhile? (· ≠ '"') []
  match next.remaining with
  | [] => return (.error .unterminatedString, next)
  | character :: rest =>
      let closed ← next.advance? character rest
      if character = '"' then
        return (.ok (.string content), closed)
      else
        return (.error .unterminatedString, closed)

/-- Reads the rest of the lexeme that begins with a character just read.  A
lexeme of one character uses no offset. -/
def token? (scanner : Scanner) (character : Char) :
    Option (Except ScanError Token × Scanner) :=
  if character = '"' then
    scanner.string?
  else if character.isDigit then do
    let (digits, next) ← scanner.takeWhile? Char.isDigit [character]
    return (.ok (.number digits), next)
  else if character.isAlpha then do
    let (word, next) ← scanner.takeWhile? Char.isAlpha [character]
    return (.ok (.ofWord word), next)
  else
    return scanner.token character

/-- Reads tokens up to the end of the text or the first failure, after those
already found. -/
def collect? (found : Array Token) (scanner : Scanner) :
    Option (Except ScanError (List Token) × Scanner) :=
  match scanner.remaining with
  | [] => return (.ok found.toList, scanner)
  | character :: rest => do
      let read ← scanner.advance? character rest
      let begun ← read.startAt? character
      match ← begun.token? character with
      | (.error error, next) => return (.error error, next)
      | (.ok token, next) =>
          if next.remaining.length < scanner.remaining.length then
            next.collect? (found.push token)
          else
            none
termination_by scanner.remaining.length

/-- Scans the remaining text with all checks.  There is no answer if one of them
fails. -/
def scan? (scanner : Scanner) :
    Option (Except ScanError (List Token) × Scanner) :=
  scanner.collect? #[]

end Checks

section Offsets

variable {scanner : Scanner} {passed lexeme : List Char}

/-- The bytes of the source are those before the start, those of the lexeme and
those of the characters to come. -/
theorem Stands.utf8ByteSize_eq (stands : scanner.Stands passed lexeme) :
    scanner.source.utf8ByteSize =
      utf8Len passed + utf8Len lexeme + utf8Len scanner.remaining := by
  rw [stands.source_eq, String.utf8ByteSize_ofList, String.utf8Len_append,
    String.utf8Len_append]

theorem Stands.source_eq_append (stands : scanner.Stands passed lexeme) :
    scanner.source =
      .ofList passed ++ .ofList lexeme ++ .ofList scanner.remaining := by
  rw [stands.source_eq, String.ofList_append, String.ofList_append]

theorem Stands.start_eq_rawEndPos (stands : scanner.Stands passed lexeme) :
    scanner.start = (String.ofList passed).rawEndPos := by
  rw [stands.start_eq, String.rawEndPos_ofList]

theorem Stands.cursor_eq_rawEndPos (stands : scanner.Stands passed lexeme) :
    scanner.cursor =
      (String.ofList passed ++ String.ofList lexeme).rawEndPos := by
  rw [stands.cursor_eq, ← String.ofList_append, String.rawEndPos_ofList,
    String.utf8Len_append]

theorem Stands.start_isValid (stands : scanner.Stands passed lexeme) :
    scanner.start.IsValid scanner.source :=
  String.Pos.Raw.isValid_iff_exists_append.mpr
    ⟨_, _, stands.source_eq_append.trans String.append_assoc,
      stands.start_eq_rawEndPos⟩

theorem Stands.cursor_isValid (stands : scanner.Stands passed lexeme) :
    scanner.cursor.IsValid scanner.source :=
  String.Pos.Raw.isValid_iff_exists_append.mpr
    ⟨_, _, stands.source_eq_append, stands.cursor_eq_rawEndPos⟩

/-- The start divides the source in front of the lexeme. -/
theorem Stands.splits_start (stands : scanner.Stands passed lexeme) :
    (scanner.source.pos scanner.start stands.start_isValid).Splits
      (.ofList passed) (.ofList lexeme ++ .ofList scanner.remaining) where
  eq_append := stands.source_eq_append.trans String.append_assoc
  offset_eq_rawEndPos := stands.start_eq_rawEndPos

/-- The cursor divides the source behind the lexeme. -/
theorem Stands.splits_cursor (stands : scanner.Stands passed lexeme) :
    (scanner.source.pos scanner.cursor stands.cursor_isValid).Splits
      (.ofList passed ++ .ofList lexeme) (.ofList scanner.remaining) where
  eq_append := stands.source_eq_append
  offset_eq_rawEndPos := stands.cursor_eq_rawEndPos

/-- Offsets that count the bytes of the characters read are valid. -/
theorem Stands.offsetsValid (stands : scanner.Stands passed lexeme) :
    scanner.OffsetsValid where
  start_le_cursor := by
    rw [stands.start_eq, stands.cursor_eq]
    exact Nat.le_add_right _ _
  cursor_le_end := stands.cursor_isValid.le_rawEndPos
  start_isValid := stands.start_isValid
  cursor_isValid := stands.cursor_isValid
  remaining_eq := by
    rw [stands.splits_cursor.copy_sliceFrom_eq, String.toList_ofList]

theorem Stands.valid? (stands : scanner.Stands passed lexeme) :
    scanner.valid? = some scanner :=
  if_pos stands.offsetsValid

-- A cursor in the middle of a character is refused.
example : (Scanner.mk "é" 0 ⟨1⟩ []).valid? = none := by decide

/-- The next character stands at the cursor. -/
theorem Stands.nextOffset_eq (stands : scanner.Stands passed lexeme) :
    scanner.nextOffset = scanner.cursor.byteIdx := by
  rw [nextOffset, stands.utf8ByteSize_eq, stands.cursor_eq]
  exact Nat.add_sub_cancel _ _

theorem Stands.advance? (stands : scanner.Stands passed lexeme)
    {character : Char} {rest : List Char}
    (remains : scanner.remaining = character :: rest) :
    scanner.advance? character rest =
      some (scanner.advance character rest) := by
  rw [Scanner.advance?, stands.nextOffset_eq]
  exact (stands.advance remains).valid?

/-- Taking the width of a character from the cursor past it gives the cursor
before it. -/
theorem Stands.startAt? (stands : scanner.Stands passed lexeme)
    {character : Char} {rest : List Char}
    (remains : scanner.remaining = character :: rest) :
    (scanner.advance character rest).startAt? character =
      some (scanner.begin character rest) := by
  have cursorEq : (scanner.advance character rest).cursor.byteIdx =
      scanner.cursor.byteIdx + character.utf8Size :=
    rfl
  have fits : character.utf8Size ≤
      (scanner.advance character rest).cursor.byteIdx := by
    omega
  have difference : (scanner.advance character rest).cursor.byteIdx -
      character.utf8Size = scanner.cursor.byteIdx := by
    omega
  rw [Scanner.startAt?, if_pos fits, difference]
  exact (stands.begin remains).valid?

theorem pos?_eq_some_of_isValid {text : String} {offset : String.Pos.Raw}
    (valid : offset.IsValid text) :
    text.pos? offset = some (text.pos offset valid) := by
  simp only [String.pos?, String.Slice.pos?,
    String.Pos.Raw.isValidForSlice_eq_true_iff,
    String.Pos.Raw.isValidForSlice_toSlice_iff, valid, dite_true,
    Option.map_some]
  rfl

/-- The text between the offsets is that of the characters read. -/
theorem Stands.cut? (stands : scanner.Stands passed lexeme) :
    scanner.cut? lexeme = some scanner.lexeme := by
  obtain ⟨ordered, copied⟩ := String.copy_slice_eq_iff_splits.mpr
    ⟨_, _, stands.splits_start, stands.splits_cursor⟩
  have sliced : scanner.source.slice?
      (scanner.source.pos scanner.start stands.start_isValid)
      (scanner.source.pos scanner.cursor stands.cursor_isValid) =
        some (scanner.source.slice _ _ ordered) :=
    dif_pos ordered
  simp [Scanner.cut?, pos?_eq_some_of_isValid stands.start_isValid,
    pos?_eq_some_of_isValid stands.cursor_isValid, sliced, copied,
    stands.lexeme_eq]

theorem skipWhile_eq_self {accepts : Char → Bool}
    (stops : scanner.remaining.takeWhile accepts = []) :
    scanner.skipWhile accepts = scanner := by
  have split :=
    List.takeWhile_append_dropWhile (p := accepts) (l := scanner.remaining)
  rw [stops, List.nil_append] at split
  rw [skipWhile, stops, split]
  rfl

/-- A run of characters can be read one by one. -/
theorem Stands.takeWhile? (stands : scanner.Stands passed lexeme)
    (accepts : Char → Bool) :
    scanner.takeWhile? accepts lexeme =
      some ((scanner.skipWhile accepts).lexeme,
        scanner.skipWhile accepts) := by
  -- By induction on what is left: each round moves one character from there to
  -- the lexeme, and the start stays.
  induction remains : scanner.remaining generalizing scanner lexeme with
  | nil =>
      have stops : scanner.skipWhile accepts = scanner :=
        skipWhile_eq_self (by simp [remains])
      rw [Scanner.takeWhile?, remains, stops]
      simp [stands.cut?]
  | cons character rest induction =>
      by_cases accepted : accepts character
      · have goesOn : scanner.skipWhile accepts =
            (scanner.advance character rest).skipWhile accepts := by
          simp [Scanner.skipWhile, Scanner.advance, remains, accepted]
        have shorter : (scanner.advance character rest).remaining.length <
            (character :: rest).length :=
          Nat.lt_succ_self _
        rw [Scanner.takeWhile?, remains, goesOn]
        simp only [accepted, stands.advance? remains, shorter, if_true,
          Option.bind_eq_bind, Option.bind_some]
        exact induction (stands.advance remains) rfl
      · have stops : scanner.skipWhile accepts = scanner :=
          skipWhile_eq_self (by simp [remains, accepted])
        rw [Scanner.takeWhile?, remains, stops]
        simp [accepted, stands.cut?]

/-- What ends the content of a string is a quote. -/
theorem eq_quote_of_remaining_stringContent {closing : Char}
    {rest : List Char}
    (closed : scanner.stringContent.remaining = closing :: rest) :
    closing = '"' := by
  have isHead : closing ∈ (scanner.remaining.dropWhile (· ≠ '"')).head? := by
    have remains : scanner.stringContent.remaining =
        scanner.remaining.dropWhile (· ≠ '"') :=
      rfl
    rw [← remains, closed]
    rfl
  simpa using head?_dropWhile_eq_false isHead

/-- A string is cut out between its quotes, even if the second one is missing. -/
theorem Stands.string? (stands : scanner.Stands passed lexeme) :
    scanner.string? = some scanner.string := by
  have opened := stands.startAtCursor
  have content : { scanner with start := scanner.cursor }.takeWhile?
      (· ≠ '"') [] =
        some (scanner.stringContent.lexeme, scanner.stringContent) :=
    opened.takeWhile? _
  rw [Scanner.string?, opened.valid?]
  simp only [Option.bind_eq_bind, Option.bind_some, content]
  cases closed : scanner.stringContent.remaining with
  | nil =>
      rw [Scanner.string, closed]
      rfl
  | cons closing rest =>
      obtain rfl := eq_quote_of_remaining_stringContent closed
      have advanced := stands.stringContent.advance? closed
      rw [Scanner.string, closed]
      simp only [advanced, if_true]
      rfl

/-- A lexeme passes all checks, whichever kind it is of. -/
theorem Stands.token? {character : Char}
    (stands : scanner.Stands passed [character]) :
    scanner.token? character = some (scanner.token character) := by
  -- No character is in two of the classes, so the order of the tests is free.
  by_cases isQuote : character = '"'
  · subst isQuote
    exact stands.string?
  by_cases isDigit : character.isDigit
  · have solid := ne_sign_of_isDigit_or_isAlpha (Or.inl isDigit)
    have notBlank := isBlank_eq_false_of_isDigit isDigit
    simp [Scanner.token?, Scanner.token, isQuote, isDigit, solid, notBlank,
      stands.takeWhile?]
  by_cases isAlpha : character.isAlpha
  · have solid := ne_sign_of_isDigit_or_isAlpha (Or.inr isAlpha)
    have notBlank := isBlank_eq_false_of_isAlpha isAlpha
    simp [Scanner.token?, Scanner.token, isQuote, isDigit, isAlpha, solid,
      notBlank, stands.takeWhile?]
  · simp [Scanner.token?, isQuote, isDigit, isAlpha]

/-- Collecting tokens passes all checks, lexeme by lexeme. -/
theorem Stands.collect? (stands : scanner.Stands passed lexeme)
    (found : Array Token) :
    scanner.collect? found = some (scanner.collect found) := by
  induction found, scanner using Scanner.collect.induct
    generalizing passed lexeme with
  | case1 found scanner empty =>
      rw [Scanner.collect?, empty, collect_of_nil empty]
      rfl
  | case2 found scanner character rest remains error next fails =>
      have checked := (stands.begin remains).token?
      rw [fails] at checked
      rw [Scanner.collect?, remains, collect_of_error remains fails]
      simp [stands.advance? remains, stands.startAt? remains, checked]
  | case3 found scanner character rest remains token next reads induction =>
      obtain ⟨-, -, _, _, standing⟩ := (stands.begin remains).token
      have checked := (stands.begin remains).token?
      rw [reads] at checked standing
      have shorter := length_remaining_lt_of_token remains reads
      rw [remains] at shorter
      rw [Scanner.collect?, remains, collect_of_ok remains reads]
      simp only [stands.advance? remains, stands.startAt? remains, checked,
        shorter, if_true, Option.bind_eq_bind, Option.bind_some]
      exact induction standing

end Offsets

section Scans

/-- The scanner after a number of scans. -/
def afterScans (scanner : Scanner) (times : Nat) : Scanner :=
  (fun current : Scanner => current.scan.2)^[times] scanner

theorem afterScans_succ (scanner : Scanner) (times : Nat) :
    scanner.afterScans (times + 1) = (scanner.afterScans times).scan.2 :=
  Function.iterate_succ_apply' _ _ _

theorem exists_stands_afterScans (source : String) (times : Nat) :
    ∃ passed lexeme,
      ((ofSource source).afterScans times).Stands passed lexeme := by
  induction times with
  | zero => exact ⟨[], [], stands_ofSource source⟩
  | succ times induction =>
      obtain ⟨passed, lexeme, stands⟩ := induction
      rw [afterScans_succ]
      exact (stands.collect #[]).2.2

theorem source_string (scanner : Scanner) :
    scanner.string.2.source = scanner.source := by
  unfold string
  split <;> rfl

theorem source_token (scanner : Scanner) (character : Char) :
    (scanner.token character).2.source = scanner.source := by
  unfold token
  repeat' split
  all_goals first | rfl | exact source_string scanner

theorem source_collect (found : Array Token) (scanner : Scanner) :
    (scanner.collect found).2.source = scanner.source := by
  induction found, scanner using Scanner.collect.induct with
  | case1 found scanner empty => rw [collect_of_nil empty]
  | case2 found scanner character rest remains error next fails =>
      rw [collect_of_error remains fails]
      have same := source_token (scanner.begin character rest) character
      rwa [fails] at same
  | case3 found scanner character rest remains token next reads induction =>
      rw [collect_of_ok remains reads, induction]
      have same := source_token (scanner.begin character rest) character
      rwa [reads] at same

theorem source_afterScans (scanner : Scanner) (times : Nat) :
    (scanner.afterScans times).source = scanner.source := by
  induction times with
  | zero => rfl
  | succ times induction =>
      rw [afterScans_succ]
      exact (source_collect #[] _).trans induction

/-- Scans keep the offsets of a scanner valid, however many there have been and
however many of them have failed.  The next scan passes every check on its way:
each state that it comes to has valid offsets, the width of a character can be
taken from the cursor past it, and each text can be cut out and consists of the
characters read for its lexeme, which for a string are those between its
quotes. -/
theorem scans_keep_offsets_valid (source : String) (times : Nat) :
    ((ofSource source).afterScans times).source = source ∧
      ((ofSource source).afterScans times).OffsetsValid ∧
      ((ofSource source).afterScans times).scan? =
        some ((ofSource source).afterScans times).scan := by
  obtain ⟨passed, lexeme, stands⟩ := exists_stands_afterScans source times
  exact ⟨source_afterScans _ times, stands.offsetsValid, stands.collect? #[]⟩

end Scans

end Scanner

end ParenCall
