import ParenCall.Proofs.ForgottenLayout

/-!
# Dropped keywords

Lowering without keywords carries a flag from form to form, which holds as long
as only blanks stand between a form and a keyword dropped before it.  The flag
does what deleting the keywords beforehand would do: the output is that of the
program in which they, and the blanks that go with them, were never written.

No keyword is left at any depth, and nothing but blanks and keywords is
dropped, so that every line feed stays in the list in which it stands.  The
flag belongs to one list: a call is lowered by itself, whatever stands before
it, and what stands after it is lowered as if it began its list.
-/

namespace ParenCall

namespace Phrase

/-- Whether no keyword stands among phrases or, at any depth, among their
arguments. -/
def KeywordFree : List Phrase → Prop
  | [] => True
  | .var :: _ => False
  | .statement _ arguments :: phrases =>
      KeywordFree arguments ∧ KeywordFree phrases
  | .call _ arguments :: phrases => KeywordFree arguments ∧ KeywordFree phrases
  | _ :: phrases => KeywordFree phrases

theorem keywordFree_placeCall (place : Place) (callee : String)
    (arguments phrases : List Phrase) :
    KeywordFree (place.call callee arguments :: phrases) ↔
      KeywordFree arguments ∧ KeywordFree phrases := by
  cases place <;> simp [Place.call, KeywordFree]

end Phrase

namespace Form

open Phrase

/-- Forms without blanks and keywords, in every list of forms. -/
def withoutBlanksAndKeywords : List Form → List Form
  | [] => []
  | .blank :: forms => withoutBlanksAndKeywords forms
  | .var :: forms => withoutBlanksAndKeywords forms
  | .call callee arguments :: forms =>
      .call callee (withoutBlanksAndKeywords arguments) ::
        withoutBlanksAndKeywords forms
  | form :: forms => form :: withoutBlanksAndKeywords forms

theorem withoutBlanksAndKeywords_dropWhile (forms : List Form) :
    withoutBlanksAndKeywords (forms.dropWhile goesWithVar) =
      withoutBlanksAndKeywords forms := by
  induction forms with
  | nil => rfl
  | cons form forms induction =>
      cases form <;>
        simp [List.dropWhile_cons, goesWithVar, withoutBlanksAndKeywords,
          induction]

theorem withoutBlanksAndKeywords_withoutKeywords (forms : List Form) :
    withoutBlanksAndKeywords (withoutKeywords forms) =
      withoutBlanksAndKeywords forms := by
  induction forms using withoutKeywords.induct with
  | case1 => rw [withoutKeywords]
  | case2 forms induction =>
      rw [withoutKeywords, induction, withoutBlanksAndKeywords_dropWhile,
        withoutBlanksAndKeywords]
  | case3 callee arguments forms inner tail =>
      simp only [withoutKeywords, withoutBlanksAndKeywords, inner, tail]
  | case4 form forms notVar notCall tail =>
      cases form with
      | var => exact absurd rfl notVar
      | call callee arguments => exact absurd rfl (notCall callee arguments)
      | _ => simp only [withoutKeywords, withoutBlanksAndKeywords, tail]

theorem withoutBlanksAndKeywords_withoutArgumentBlanks (place : Place)
    (forms : List Form) :
    withoutBlanksAndKeywords (withoutArgumentBlanks place forms) =
      withoutBlanksAndKeywords forms := by
  induction place, forms using withoutArgumentBlanks.induct with
  | case1 place => rw [withoutArgumentBlanks]
  | case2 forms induction =>
      simpa [withoutArgumentBlanks, withoutBlanksAndKeywords] using induction
  | case3 place forms outside induction =>
      simpa [withoutArgumentBlanks, withoutBlanksAndKeywords, outside]
        using induction
  | case4 place callee arguments forms inner tail =>
      simp only [withoutArgumentBlanks, withoutBlanksAndKeywords, inner, tail]
  | case5 place form forms notBlank notCall tail =>
      cases form with
      | blank => exact absurd rfl notBlank
      | call callee arguments => exact absurd rfl (notCall callee arguments)
      | _ => simp only [withoutArgumentBlanks, withoutBlanksAndKeywords, tail]

/-- Lowering drops nothing but blanks and keywords. -/
theorem withoutBlanksAndKeywords_raiseAll_lowerForms (options : Options)
    (forms : List Form) :
    withoutBlanksAndKeywords (raiseAll (lowerForms options forms)) =
      withoutBlanksAndKeywords forms := by
  rw [raiseAll_lowerForms, remembered,
    withoutBlanksAndKeywords_withoutArgumentBlanks]
  split
  · rfl
  · exact withoutBlanksAndKeywords_withoutKeywords forms

/-- No list of forms is lowered to a keyword unless keywords are kept. -/
theorem keywordFree_lowerAll {options : Options}
    (drops : options.keepVar = false) (place : Place) (afterVar : Bool)
    (forms : List Form) :
    KeywordFree (lowerAll options place afterVar forms) := by
  induction forms using withoutBlanksAndKeywords.induct
    generalizing place afterVar with
  | case1 => simp [lowerAll, KeywordFree]
  | case2 forms induction =>
      rw [lowerAll]
      split
      · exact induction place afterVar
      · rw [KeywordFree]
        · exact induction place false
        all_goals simp
  | case3 forms induction =>
      simpa [lowerAll, drops] using induction place true
  | case4 callee arguments forms inner tail =>
      simp only [lowerAll, lower, keywordFree_placeCall]
      exact ⟨inner .arguments false, tail place false⟩
  | case5 form forms notBlank notVar notCall tail =>
      cases form with
      | blank => exact absurd rfl notBlank
      | var => exact absurd rfl notVar
      | call callee arguments => exact absurd rfl (notCall callee arguments)
      | _ =>
          simp only [lowerAll, lower, KeywordFree]
          exact tail place false

/-- A call is lowered by itself, and it leaves no keyword behind for the forms
after it. -/
theorem lowerAll_append_call (options : Options) (place : Place)
    (afterVar : Bool) (first : List Form) (callee : String)
    (arguments second : List Form) :
    lowerAll options place afterVar (first ++ .call callee arguments :: second) =
      lowerAll options place afterVar first ++
        place.call callee (lowerAll options .arguments false arguments) ::
          lowerAll options place false second := by
  induction first generalizing afterVar with
  | nil => simp [lowerAll, lower]
  | cons form first induction =>
      rw [List.cons_append]
      cases form with
      | blank | var =>
          simp only [lowerAll]
          split <;> simp [induction]
      | _ => simp [lowerAll, induction]

end Form

open Form Phrase

/-- Dropping keywords is the same as never having written them.  No keyword is
left, nothing but blanks and keywords is missing, and whether a blank goes with
a keyword before it is a matter of one list: neither does the list around a
call bear on its arguments, nor do these bear on what follows the call. -/
theorem lowerForms_drops_keywords :
    (∀ forms : List Form,
      lowerForms ⟨false⟩ forms = lowerForms ⟨true⟩ (withoutKeywords forms) ∧
        KeywordFree (lowerForms ⟨false⟩ forms) ∧
        withoutBlanksAndKeywords (raiseAll (lowerForms ⟨false⟩ forms)) =
          withoutBlanksAndKeywords forms) ∧
      ∀ (place : Place) (afterVar : Bool) (first : List Form)
        (callee : String) (arguments second : List Form),
        lowerAll ⟨false⟩ place afterVar
            (first ++ .call callee arguments :: second) =
          lowerAll ⟨false⟩ place afterVar first ++
            place.call callee (lowerAll ⟨false⟩ .arguments false arguments) ::
              lowerAll ⟨false⟩ place false second := by
  refine ⟨?_, lowerAll_append_call ⟨false⟩⟩
  intro forms
  refine ⟨?_, ?_, ?_⟩
  · exact (lowerAll_withoutKeywords rfl .topLevel forms).symm
  · exact keywordFree_lowerAll rfl .topLevel false forms
  · exact withoutBlanksAndKeywords_raiseAll_lowerForms ⟨false⟩ forms

-- The line feed ends the run of the first keywords, and the keyword that ends
-- the arguments takes no blank after the call along.
example :
    lowerForms ⟨false⟩
        [.var, .blank, .var, .newline, .blank, .var,
          .call "f" [.blank, .number "1", .var], .blank, .string "x"] =
      [.newline, .blank, .statement "f" [.number "1"], .blank,
        .string "x"] := by
  cbv

end ParenCall
