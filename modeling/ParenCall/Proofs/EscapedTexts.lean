import ParenCall.Proofs.TextLexemes
import ParenCall.QuotedText

/-!
# Reading escaped texts

A text between quotes can be read back, whatever class of characters is
written by code points.  A character is written in one of three ways: as a
short escape, by its code point, or as itself, and then it is neither the quote
nor the backslash.  Where one character ends can be seen without knowing which
class was used, so even two texts escaped for different classes are the same
text if they are written alike.
-/

namespace ParenCall

/-- A run of characters of a class can be told from what follows it. -/
theorem run_append_inj {accepts : Char → Bool}
    {first second rest otherRest : List Char}
    (accepted : ∀ character ∈ first, accepts character)
    (otherAccepted : ∀ character ∈ second, accepts character)
    (stops : ∀ next ∈ rest.head?, accepts next = false)
    (otherStops : ∀ next ∈ otherRest.head?, accepts next = false)
    (same : first ++ rest = second ++ otherRest) :
    first = second ∧ rest = otherRest := by
  have taken := congrArg (List.takeWhile accepts) same
  rw [List.takeWhile_append_of_pos accepted,
    List.takeWhile_append_of_pos otherAccepted,
    (takeWhile_eq_nil_of_head? stops).1,
    (takeWhile_eq_nil_of_head? otherStops).1, List.append_nil,
    List.append_nil] at taken
  subst taken
  exact ⟨rfl, List.append_cancel_left same⟩

section CodePoints

theorem digitChar_inj {first second : Nat} (bound : first < 16)
    (otherBound : second < 16)
    (same : first.digitChar = second.digitChar) : first = second := by
  have all : ∀ digit < 16, ∀ other < 16,
      digit.digitChar = other.digitChar → digit = other := by
    decide
  exact all first bound second otherBound same

/-- Hexadecimal digits tell the number. -/
theorem toDigits_inj {first second : Nat}
    (same : Nat.toDigits 16 first = Nat.toDigits 16 second) :
    first = second := by
  induction first using Nat.strongRecOn generalizing second with
  | ind first induction =>
      rw [@Nat.toDigits_eq_if 16 first (by decide),
        @Nat.toDigits_eq_if 16 second (by decide)] at same
      split at same
      · rename_i small
        split at same
        · rename_i otherSmall
          exact digitChar_inj small otherSmall (List.singleton_inj.mp same)
        · have longer := @Nat.length_toDigits_pos 16 (second / 16)
          have lengths := congrArg List.length same
          rw [List.length_append, List.length_singleton,
            List.length_singleton] at lengths
          omega
      · rename_i large
        split at same
        · have longer := @Nat.length_toDigits_pos 16 (first / 16)
          have lengths := congrArg List.length same
          rw [List.length_append, List.length_singleton,
            List.length_singleton] at lengths
          omega
        · obtain ⟨heads, lasts⟩ := List.append_inj' same rfl
          have quotients : first / 16 = second / 16 :=
            induction (first / 16) (by omega) heads
          have remainders : first % 16 = second % 16 :=
            digitChar_inj (Nat.mod_lt _ (by decide)) (Nat.mod_lt _ (by decide))
              (List.singleton_inj.mp lasts)
          omega

theorem brace_notMem_toDigits (number : Nat) :
    '\x7d' ∉ Nat.toDigits 16 number := by
  have noDigit (digit : Nat) : '\x7d' ≠ digit.digitChar :=
    (Nat.digitChar_ne '\x7d' (by decide)).symm
  induction number using Nat.strongRecOn with
  | ind number induction =>
      rw [Nat.toDigits_eq_if (by decide)]
      split
      · rw [List.mem_singleton]
        exact noDigit number
      · rw [List.mem_append, List.mem_singleton, not_or]
        exact ⟨induction (number / 16) (by omega), noDigit (number % 16)⟩

end CodePoints

/-- The character after the backslash, for a character with a short escape. -/
def shortEscape : Char → Option Char
  | '"' => some '"'
  | '\\' => some '\\'
  | '\n' => some 'n'
  | '\r' => some 'r'
  | '\t' => some 't'
  | '\x00' => some '0'
  | _ => none

/-- The character whose short escape has the given sign. -/
def ofShortEscape : Char → Char
  | 'n' => '\n'
  | 'r' => '\r'
  | 't' => '\t'
  | '0' => '\x00'
  | sign => sign

theorem ofShortEscape_eq {character sign : Char}
    (isShort : shortEscape character = some sign) :
    ofShortEscape sign = character := by
  unfold shortEscape at isShort
  split at isShort <;> cases isShort <;> rfl

theorem ne_u_of_shortEscape {character sign : Char}
    (isShort : shortEscape character = some sign) : sign ≠ 'u' := by
  rintro rfl
  unfold shortEscape at isShort
  split at isShort <;> simp at isShort

/-- The ways in which a character is written inside a quoted text, for one
class of characters or another. -/
inductive IsWritten : Char → List Char → Prop
  | short {character sign : Char} (isShort : shortEscape character = some sign) :
      IsWritten character ['\\', sign]
  | codePoint (character : Char) :
      IsWritten character (codePointEscape character)
  | raw {character : Char} (notQuote : character ≠ '"')
      (notBackslash : character ≠ '\\') : IsWritten character [character]

theorem isWritten_escapeCharacter (escaped : Char → Bool) (character : Char) :
    IsWritten character (escapeCharacter escaped character) := by
  unfold escapeCharacter
  split
  case h_7 notQuote notBackslash _ _ _ _ =>
    split
    · exact .codePoint character
    · exact .raw notQuote notBackslash
  all_goals exact .short rfl

namespace IsWritten

variable {first second : Char} {text otherText rest otherRest : List Char}

theorem exists_head_ne_quote (written : IsWritten first text) :
    ∃ character following, text = character :: following ∧
      character ≠ '"' := by
  cases written with
  | short isShort => exact ⟨_, _, rfl, by decide⟩
  | codePoint => exact ⟨_, _, rfl, by decide⟩
  | raw notQuote notBackslash => exact ⟨_, _, rfl, notQuote⟩

theorem codePoint_inj
    (same : codePointEscape first ++ rest =
      codePointEscape second ++ otherRest) :
    first = second ∧ rest = otherRest := by
  simp only [codePointEscape, List.append_assoc, List.cons_append,
    List.nil_append, List.cons.injEq, true_and] at same
  have digits (number : Nat) : ∀ digit ∈ Nat.toDigits 16 number,
      decide (digit ≠ '\x7d') = true := by
    intro digit member
    apply decide_eq_true
    rintro rfl
    exact brace_notMem_toDigits number member
  have stops (following : List Char) :
      ∀ next ∈ ('\x7d' :: following).head?,
        decide (next ≠ '\x7d') = false := by
    simp
  obtain ⟨digitsEq, rests⟩ := run_append_inj (digits _) (digits _) (stops _)
    (stops _) same
  exact ⟨Char.toNat_inj.mp (toDigits_inj digitsEq), (List.cons.inj rests).2⟩

/-- Where a written character ends can be seen, and which one it is. -/
theorem inj (written : IsWritten first text)
    (otherWritten : IsWritten second otherText)
    (same : text ++ rest = otherText ++ otherRest) :
    first = second ∧ rest = otherRest := by
  cases written with
  | short isShort =>
      cases otherWritten with
      | short otherShort =>
          simp only [List.cons_append, List.nil_append, List.cons.injEq,
            true_and] at same
          obtain ⟨rfl, restEq⟩ := same
          rw [← ofShortEscape_eq isShort, ofShortEscape_eq otherShort]
          exact ⟨rfl, restEq⟩
      | codePoint =>
          simp only [codePointEscape, List.cons_append, List.nil_append,
            List.cons.injEq, true_and] at same
          exact absurd same.1 (ne_u_of_shortEscape isShort)
      | raw notQuote notBackslash =>
          exact absurd (List.cons.inj same).1.symm notBackslash
  | codePoint =>
      cases otherWritten with
      | short otherShort =>
          simp only [codePointEscape, List.cons_append, List.nil_append,
            List.cons.injEq, true_and] at same
          exact absurd same.1.symm (ne_u_of_shortEscape otherShort)
      | codePoint => exact codePoint_inj same
      | raw notQuote notBackslash =>
          exact absurd (List.cons.inj same).1.symm notBackslash
  | raw notQuote notBackslash =>
      cases otherWritten with
      | short otherShort => exact absurd (List.cons.inj same).1 notBackslash
      | codePoint => exact absurd (List.cons.inj same).1 notBackslash
      | raw otherNotQuote otherNotBackslash => exact List.cons.inj same

end IsWritten

/-- A quoted text can be read back, with whatever follows its last quote. -/
theorem writeQuoted_inj {escaped otherEscaped : Char → Bool}
    {first second : String} {rest otherRest : List Char}
    (same : writeQuoted escaped first rest =
      writeQuoted otherEscaped second otherRest) :
    first = second ∧ rest = otherRest := by
  simp only [writeQuoted, escapeText, List.cons.injEq, true_and] at same
  rw [← String.toList_inj]
  generalize first.toList = characters at same ⊢
  generalize second.toList = others at same ⊢
  induction characters generalizing others with
  | nil =>
      cases others with
      | nil => exact ⟨rfl, (List.cons.inj same).2⟩
      | cons other others =>
          obtain ⟨character, following, writtenEq, notQuote⟩ :=
            (isWritten_escapeCharacter otherEscaped other).exists_head_ne_quote
          rw [List.flatMap_cons, writtenEq] at same
          exact absurd (List.cons.inj same).1.symm notQuote
  | cons character characters induction =>
      cases others with
      | nil =>
          obtain ⟨sign, following, writtenEq, notQuote⟩ :=
            (isWritten_escapeCharacter escaped character).exists_head_ne_quote
          rw [List.flatMap_cons, writtenEq] at same
          exact absurd (List.cons.inj same).1 notQuote
      | cons other others =>
          rw [List.flatMap_cons, List.flatMap_cons, List.append_assoc,
            List.append_assoc] at same
          obtain ⟨rfl, rests⟩ :=
            (isWritten_escapeCharacter escaped character).inj
              (isWritten_escapeCharacter otherEscaped other) same
          obtain ⟨rfl, restEq⟩ := induction others rests
          exact ⟨rfl, restEq⟩

end ParenCall
