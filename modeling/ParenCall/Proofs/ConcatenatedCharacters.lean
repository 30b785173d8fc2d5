import Mathlib.Data.List.TakeWhile
import ParenCall.Proofs.CharacterLexing

/-!
# Lexing concatenated characters

Lexemes are as long as possible, so the first of two lists of characters is
lexed apart from the second one only if its last lexeme cannot go on.  Just
numbers and words can go on: a string ends with its closing quote, and every
other lexeme is a single character.
-/

namespace ParenCall

/-- Whether a token is spelled as a word. -/
def Token.isName : Token → Bool
  | .identifier _ | .var => true
  | _ => false

theorem Token.isName_ofWord (word : String) : (ofWord word).isName := by
  unfold ofWord
  split <;> rfl

theorem span_append {accepts : Char → Bool} {rest more : List Char}
    (stops : rest.dropWhile accepts = [] →
      ∀ next ∈ more.head?, accepts next = false) :
    (rest ++ more).takeWhile accepts = rest.takeWhile accepts ∧
      (rest ++ more).dropWhile accepts = rest.dropWhile accepts ++ more := by
  induction rest with
  | nil =>
      cases more with
      | nil => simp
      | cons next more => simp [stops rfl next (by simp)]
  | cons character rest induction =>
      by_cases accepted : accepts character
      · simp only [List.dropWhile_cons, accepted, if_true] at stops
        simpa [accepted] using induction stops
      · simp [accepted]

theorem lexString_append {rest following : List Char} {token : Token}
    (lexes : lexString rest = (.ok token, following)) (more : List Char) :
    lexString (rest ++ more) = (.ok token, following ++ more) := by
  unfold lexString at lexes
  split at lexes
  · simp at lexes
  · rename_i closing _ closed
    have spans := @span_append (· ≠ '"') rest more
      fun dropped => by
        rw [dropped] at closed
        cases closed
    simp only [Prod.mk.injEq, Except.ok.injEq] at lexes
    obtain ⟨rfl, rfl⟩ := lexes
    rw [lexString, spans.1, spans.2, closed]
    rfl

/-- A lexeme stays the same when characters that cannot go on with it follow.
Only a number or a word can be gone on with. -/
theorem lexToken_append {character : Char} {rest following more : List Char}
    {token : Token} (lexes : lexToken character rest = (.ok token, following))
    (digitsEnd : character.isDigit → rest.dropWhile Char.isDigit = [] →
      ∀ next ∈ more.head?, next.isDigit = false)
    (wordEnds : token.isName → following = [] →
      ∀ next ∈ more.head?, next.isAlpha = false) :
    lexToken character (rest ++ more) = (.ok token, following ++ more) := by
  unfold lexToken at lexes ⊢
  split at lexes
  · cases lexes
    simp [*]
  split at lexes
  · cases lexes
    simp [*]
  split at lexes
  · cases lexes
    simp [*]
  split at lexes
  · simp [*, lexString_append lexes]
  split at lexes
  · cases lexes
    simp [*]
  split at lexes
  · rename_i isDigit
    cases lexes
    simp [*, span_append (digitsEnd isDigit)]
  split at lexes
  · cases lexes
    simp [*, span_append (wordEnds (Token.isName_ofWord _))]
  · simp at lexes

theorem exists_getLast?_isDigit {character : Char} {rest : List Char}
    (isDigit : character.isDigit) (dropped : rest.dropWhile Char.isDigit = []) :
    ∃ last ∈ (character :: rest).getLast?, last.isDigit := by
  have digits : ∀ other ∈ rest, other.isDigit := by
    simpa using List.dropWhile_eq_nil_iff.mp dropped
  refine ⟨(character :: rest).getLast (by simp),
    List.getLast?_eq_some_getLast (by simp), ?_⟩
  rcases List.mem_cons.mp (List.getLast_mem (by simp)) with same | member
  · rw [same]
    exact isDigit
  · exact digits _ member

/-- Characters that are lexed to the end can be lexed apart from what follows
them, unless a name ends them or digits stand on both sides. -/
theorem lexAll_append {first : List Char} {tokens : List Token}
    (lexes : (lexAll first).1 = .ok tokens)
    (noName : ∀ token ∈ tokens.getLast?, token.isName = false)
    {second : List Char}
    (apart : ∀ last ∈ first.getLast?, last.isDigit →
      ∀ next ∈ second.head?, next.isDigit = false) :
    (lexAll (first ++ second)).1 = (lexAll second).1.map (tokens ++ ·) := by
  induction first using lexAll.induct generalizing tokens with
  | case1 =>
      rw [lexAll_nil] at lexes
      cases lexes
      rw [List.nil_append]
      cases (lexAll second).1 <;> rfl
  | case2 character rest error following fails =>
      rw [lexAll_cons_of_error fails] at lexes
      cases lexes
  | case3 character rest token following reads induction =>
      rw [lexAll_cons_of_ok reads] at lexes
      cases othersEq : (lexAll following).1 with
      | error error =>
          rw [othersEq] at lexes
          cases lexes
      | ok others =>
          rw [othersEq] at lexes
          cases lexes
          have digitsEnd : character.isDigit →
              rest.dropWhile Char.isDigit = [] →
                ∀ next ∈ second.head?, next.isDigit = false := by
            intro isDigit dropped
            obtain ⟨last, isLast, lastDigit⟩ :=
              exists_getLast?_isDigit isDigit dropped
            exact apart last isLast lastDigit
          have wordEnds : token.isName → following = [] →
              ∀ next ∈ second.head?, next.isAlpha = false := by
            rintro isName rfl
            rw [lexAll_nil] at othersEq
            cases othersEq
            simp [noName token (by simp)] at isName
          have step := lexToken_append reads digitsEnd wordEnds
          obtain ⟨consumed, consumedEq⟩ : following <:+ rest := by
            simpa [reads] using lexToken_suffix character rest
          have noNameLater : ∀ other ∈ others.getLast?,
              other.isName = false := by
            intro other isLast
            apply noName other
            rw [List.getLast?_cons, Option.mem_def.mp isLast]
            rfl
          have apartLater : ∀ last ∈ following.getLast?, last.isDigit →
              ∀ next ∈ second.head?, next.isDigit = false := by
            intro last isLast
            apply apart last
            rw [← consumedEq, List.getLast?_cons, List.getLast?_append,
              Option.mem_def.mp isLast]
            rfl
          rw [List.cons_append, lexAll_cons_of_ok step,
            induction othersEq noNameLater apartLater]
          cases (lexAll second).1 <;> rfl

end ParenCall
