import ParenCall.Proofs.ForgottenLayout

/-!
# The phrases that lowering gives

Lowering with keywords gives exactly the phrases in which every call stands in
its place: statements at the top level, and plain calls among arguments, where
no blanks stand either.  Any list of such phrases comes from the forms that it
is raised to.  Two programs have the same phrases exactly if they differ in
blanks among arguments only.
-/

namespace ParenCall

namespace Phrase

/-- Whether phrases can stand in a place.  Calls at the top level are
statements, and among arguments there are no statements and no blanks. -/
def Fit (place : Place) : List Phrase → Prop
  | [] => True
  | .statement _ arguments :: phrases =>
      place = .topLevel ∧ Fit .arguments arguments ∧ Fit place phrases
  | .call _ arguments :: phrases =>
      place = .arguments ∧ Fit .arguments arguments ∧ Fit place phrases
  | .blank :: phrases => place = .topLevel ∧ Fit place phrases
  | _ :: phrases => Fit place phrases

theorem fit_placeCall (place : Place) (callee : String)
    (arguments phrases : List Phrase) :
    Fit place (place.call callee arguments :: phrases) ↔
      Fit .arguments arguments ∧ Fit place phrases := by
  cases place <;> simp [Place.call, Fit]

end Phrase

open Form Phrase

/-- Lowered forms can stand in their place. -/
theorem fit_lowerAll (options : Options) (place : Place) (afterVar : Bool)
    (forms : List Form) :
    Fit place (lowerAll options place afterVar forms) := by
  induction place, forms using withoutArgumentBlanks.induct
    generalizing afterVar with
  | case1 place => simp [lowerAll, Fit]
  | case2 forms induction => simpa [lowerAll] using induction afterVar
  | case3 place forms outside induction =>
      have top : place = .topLevel := by
        cases place with
        | topLevel => rfl
        | arguments => exact absurd rfl outside
      rw [lowerAll]
      split
      · exact induction afterVar
      · rw [Fit]
        exact ⟨top, induction false⟩
  | case4 place callee arguments forms inner tail =>
      simp only [lowerAll, lower, fit_placeCall]
      exact ⟨inner false, tail false⟩
  | case5 place form forms notBlank notCall tail =>
      cases form with
      | blank => exact absurd rfl notBlank
      | call callee arguments => exact absurd rfl (notCall callee arguments)
      | var =>
          rw [lowerAll]
          split
          · simp only [Fit]
            exact tail false
          · exact tail true
      | _ =>
          simp only [lowerAll, lower, Fit]
          exact tail false

/-- Lowering undoes raising of phrases that stand in their place. -/
theorem lowerAll_raiseAll {place : Place} {phrases : List Phrase}
    (fit : Fit place phrases) :
    lowerAll ⟨true⟩ place false (raiseAll phrases) = phrases := by
  induction place, phrases using Fit.induct with
  | case1 place => simp [raiseAll, lowerAll]
  | case2 place callee arguments phrases inner tail =>
      rw [Fit] at fit
      obtain ⟨rfl, innerFit, tailFit⟩ := fit
      simp [raiseAll, raise, lowerAll, lower, Place.call, inner innerFit,
        tail tailFit]
  | case3 place callee arguments phrases inner tail =>
      rw [Fit] at fit
      obtain ⟨rfl, innerFit, tailFit⟩ := fit
      simp [raiseAll, raise, lowerAll, lower, Place.call, inner innerFit,
        tail tailFit]
  | case4 place phrases tail =>
      rw [Fit] at fit
      obtain ⟨rfl, tailFit⟩ := fit
      simp [raiseAll, raise, lowerAll, tail tailFit]
  | case5 place phrase phrases notStatement notCall notBlank tail =>
      cases phrase with
      | statement callee arguments =>
          exact absurd rfl (notStatement callee arguments)
      | call callee arguments => exact absurd rfl (notCall callee arguments)
      | blank => exact absurd rfl notBlank
      | _ =>
          simp only [Fit] at fit
          simp [raiseAll, raise, lowerAll, lower, tail fit]

/-- Lowering with keywords reaches exactly the programs whose phrases stand in
their place, and it forgets exactly the blanks among arguments. -/
theorem lowerForms_image_and_kernel :
    Set.range (lowerForms ⟨true⟩) = { phrases | Fit .topLevel phrases } ∧
      ∀ first second : List Form,
        lowerForms ⟨true⟩ first = lowerForms ⟨true⟩ second ↔
          withoutArgumentBlanks .topLevel first =
            withoutArgumentBlanks .topLevel second := by
  constructor
  · ext phrases
    constructor
    · rintro ⟨forms, rfl⟩
      exact fit_lowerAll ⟨true⟩ .topLevel false forms
    · intro fit
      exact ⟨raiseAll phrases, lowerAll_raiseAll fit⟩
  · intro first second
    exact lowerForms_eq_iff

end ParenCall
