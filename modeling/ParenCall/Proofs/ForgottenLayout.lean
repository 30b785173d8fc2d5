import ParenCall.Proofs.LegibleLowering

/-!
# Forgotten layout

Compilation forgets the blanks between the arguments of calls and, when
keywords are dropped, the keywords with the blanks right after them.  It
forgets nothing else: two programs have the same output exactly if they are
equal once what is forgotten has been deleted from both.

Lowering does not see what is forgotten, and the forms that are left can be
raised again from their phrases.  The phrases in turn can be read off the
output text, because the phrases of a source text are legible.
-/

namespace ParenCall

namespace Form

/-- Forms without the blanks that are arguments of a call, at any depth. -/
def withoutArgumentBlanks (place : Place) : List Form → List Form
  | [] => []
  | .blank :: forms =>
      if place = .arguments then withoutArgumentBlanks place forms
      else .blank :: withoutArgumentBlanks place forms
  | .call callee arguments :: forms =>
      .call callee (withoutArgumentBlanks .arguments arguments) ::
        withoutArgumentBlanks place forms
  | form :: forms => form :: withoutArgumentBlanks place forms

theorem sizeOf_dropWhile_le (accepts : Form → Bool) (forms : List Form) :
    sizeOf (forms.dropWhile accepts) ≤ sizeOf forms := by
  induction forms with
  | nil => exact Nat.le_refl _
  | cons form forms induction =>
      rw [List.dropWhile_cons]
      split
      · simp only [List.cons.sizeOf_spec]
        omega
      · exact Nat.le_refl _

/-- Forms without the keywords, each with the run of blanks and keywords right
after it, in every list of forms. -/
def withoutKeywords : List Form → List Form
  | [] => []
  | .var :: forms => withoutKeywords (forms.dropWhile goesWithVar)
  | .call callee arguments :: forms =>
      .call callee (withoutKeywords arguments) :: withoutKeywords forms
  | form :: forms => form :: withoutKeywords forms
termination_by forms => sizeOf forms
decreasing_by
  · have bound := sizeOf_dropWhile_le goesWithVar forms
    simp only [List.cons.sizeOf_spec]
    omega
  · simp_wf
    omega
  all_goals simp_wf

/-- Lowering without keywords is lowering with them, once they are deleted. -/
theorem lowerAll_withoutKeywords {options : Options}
    (drops : options.keepVar = false) (place : Place) (forms : List Form) :
    lowerAll ⟨true⟩ place false (withoutKeywords forms) =
      lowerAll options place false forms := by
  induction forms using withoutKeywords.induct generalizing place with
  | case1 => rw [withoutKeywords, lowerAll, lowerAll]
  | case2 forms induction =>
      rw [withoutKeywords, induction, ← lowerAll_afterVar drops]
      simp [lowerAll, drops]
  | case3 callee arguments forms inner tail =>
      simp only [withoutKeywords, lowerAll, lower, inner, tail]
  | case4 form forms notVar notCall tail =>
      cases form with
      | var => exact absurd rfl notVar
      | call callee arguments => exact absurd rfl (notCall callee arguments)
      | _ => simp only [withoutKeywords, lowerAll, lower, tail, Bool.or_false]

/-- Lowering does not see the blanks among arguments. -/
theorem lowerAll_withoutArgumentBlanks (place : Place) (forms : List Form) :
    lowerAll ⟨true⟩ place false (withoutArgumentBlanks place forms) =
      lowerAll ⟨true⟩ place false forms := by
  induction place, forms using withoutArgumentBlanks.induct with
  | case1 place => rw [withoutArgumentBlanks]
  | case2 forms induction =>
      simpa [lowerAll, withoutArgumentBlanks] using induction
  | case3 place forms outside induction =>
      simp [lowerAll, withoutArgumentBlanks, outside, induction]
  | case4 place callee arguments forms inner tail =>
      simp only [withoutArgumentBlanks, lowerAll, lower, inner, tail]
  | case5 place form forms notBlank notCall tail =>
      cases form with
      | blank => exact absurd rfl notBlank
      | call callee arguments => exact absurd rfl (notCall callee arguments)
      | _ => simp [withoutArgumentBlanks, lowerAll, lower, tail]

/-- What is left of a program once everything that compilation forgets has been
deleted. -/
def remembered (options : Options) (forms : List Form) : List Form :=
  withoutArgumentBlanks .topLevel
    (if options.keepVar then forms else withoutKeywords forms)

-- Blanks stay at the top level, unless they follow a keyword that goes.
example :
    remembered ⟨false⟩
        [.blank, .var, .blank, .var, .newline, .blank,
          .call "f" [.blank, .number "1", .newline, .var, .string "x"]] =
      [.blank, .newline, .blank,
        .call "f" [.number "1", .newline, .string "x"]] := by
  cbv

end Form

namespace Phrase

mutual

/-- The form that a phrase stands for. -/
def raise : Phrase → Form
  | .statement callee arguments => .call callee (raiseAll arguments)
  | .call callee arguments => .call callee (raiseAll arguments)
  | .name identifier => .name identifier
  | .number digits => .number digits
  | .string content => .string content
  | .blank => .blank
  | .newline => .newline
  | .var => .var
  | .equals => .equals
  | .semicolon => .semicolon

/-- The forms that neighbouring phrases stand for. -/
def raiseAll : List Phrase → List Form
  | [] => []
  | phrase :: phrases => raise phrase :: raiseAll phrases

end

theorem raise_placeCall (place : Place) (callee : String)
    (arguments : List Phrase) :
    (place.call callee arguments).raise = .call callee (raiseAll arguments) := by
  cases place <;> rfl

end Phrase

namespace Form

open Phrase

/-- Raising undoes lowering up to the blanks among arguments. -/
theorem raiseAll_lowerAll (place : Place) (forms : List Form) :
    raiseAll (lowerAll ⟨true⟩ place false forms) =
      withoutArgumentBlanks place forms := by
  induction place, forms using withoutArgumentBlanks.induct with
  | case1 place => rw [lowerAll, raiseAll, withoutArgumentBlanks]
  | case2 forms induction =>
      simpa [lowerAll, withoutArgumentBlanks] using induction
  | case3 place forms outside induction =>
      simpa [lowerAll, raiseAll, raise, withoutArgumentBlanks, outside]
        using induction
  | case4 place callee arguments forms inner tail =>
      simp only [lowerAll, lower, raiseAll, raise_placeCall,
        withoutArgumentBlanks, inner, tail]
  | case5 place form forms notBlank notCall tail =>
      cases form with
      | blank => exact absurd rfl notBlank
      | call callee arguments => exact absurd rfl (notCall callee arguments)
      | _ =>
          simp [lowerAll, lower, raiseAll, raise, withoutArgumentBlanks, tail]

end Form

open Form Phrase

variable {options : Options}

theorem lowerForms_eq_lowerAll (forms : List Form) :
    lowerForms options forms =
      lowerAll ⟨true⟩ .topLevel false
        (if options.keepVar then forms else withoutKeywords forms) := by
  cases keeps : options.keepVar with
  | true =>
      have same : options = ⟨true⟩ := by
        cases options
        cases keeps
        rfl
      rw [if_pos rfl, same, lowerForms]
  | false =>
      rw [if_neg Bool.false_ne_true, lowerAll_withoutKeywords keeps, lowerForms]

theorem raiseAll_lowerForms (forms : List Form) :
    raiseAll (lowerForms options forms) = remembered options forms := by
  rw [lowerForms_eq_lowerAll, raiseAll_lowerAll, remembered]

theorem lowerAll_remembered (forms : List Form) :
    lowerAll ⟨true⟩ .topLevel false (remembered options forms) =
      lowerForms options forms := by
  rw [remembered, lowerAll_withoutArgumentBlanks, ← lowerForms_eq_lowerAll]

/-- Two programs are lowered to the same phrases exactly if the same is left of
both. -/
theorem lowerForms_eq_iff {first second : List Form} :
    lowerForms options first = lowerForms options second ↔
      remembered options first = remembered options second := by
  constructor
  · intro same
    rw [← raiseAll_lowerForms, same, raiseAll_lowerForms]
  · intro same
    rw [← lowerAll_remembered, same, lowerAll_remembered]

/-- Whether phrases are the output program of some source text. -/
def ComesFromSource (phrases : List Phrase) : Prop :=
  ∃ options source, (sourceForms source).map (lowerForms options) = .ok phrases

theorem ComesFromSource.legible {phrases : List Phrase}
    (comes : ComesFromSource phrases) : Legible .topLevel phrases := by
  obtain ⟨options, source, lowers⟩ := comes
  cases reads : sourceForms source with
  | error error =>
      rw [reads] at lowers
      cases lowers
  | ok forms =>
      rw [reads] at lowers
      cases lowers
      exact legible_lowerForms options reads

/-- The text of an output program tells the program. -/
theorem injOn_phrasesText :
    Set.InjOn phrasesText { phrases | ComesFromSource phrases } := by
  intro first comes second otherComes same
  exact comes.legible.eq_of_phrasesText otherComes.legible same

/-- Two source texts have the same output exactly if the same is left of their
forms, and nothing is lost between the phrases and the output text. -/
theorem compile_eq_iff_remembered_eq {first second : String}
    {firstOutput secondOutput : String}
    (compiles : compile options first = .ok firstOutput)
    (otherCompiles : compile options second = .ok secondOutput) :
    (compile options first = compile options second ↔
      (sourceForms first).map (remembered options) =
        (sourceForms second).map (remembered options)) ∧
      Set.InjOn phrasesText { phrases | ComesFromSource phrases } := by
  refine ⟨?_, injOn_phrasesText⟩
  obtain ⟨forms, reads, rfl⟩ := exists_sourceForms_of_compile compiles
  obtain ⟨others, otherReads, rfl⟩ :=
    exists_sourceForms_of_compile otherCompiles
  have legible := legible_lowerForms options reads
  have otherLegible := legible_lowerForms options otherReads
  rw [compiles, otherCompiles, reads, otherReads]
  simp only [Except.map, Except.ok.injEq]
  rw [← lowerForms_eq_iff]
  constructor
  · intro same
    exact legible.eq_of_phrasesText otherLegible same
  · intro same
    rw [same]

theorem compile_eq_iff_remembered_eq_blanks :
    compile ⟨false⟩ "var  a 1(f 2  var \"b\")" = .ok "a = 1;f(2, \"b\");" ∧
      compile ⟨false⟩ "var a 1(f 2 \"b\" )" = .ok "a = 1;f(2, \"b\");" ∧
      (compile ⟨false⟩ "var  a 1(f 2  var \"b\")" =
          compile ⟨false⟩ "var a 1(f 2 \"b\" )" ↔
        (sourceForms "var  a 1(f 2  var \"b\")").map (remembered ⟨false⟩) =
          (sourceForms "var a 1(f 2 \"b\" )").map (remembered ⟨false⟩)) ∧
      Set.InjOn phrasesText { phrases | ComesFromSource phrases } := by
  have compiles : compile ⟨false⟩ "var  a 1(f 2  var \"b\")" =
      .ok "a = 1;f(2, \"b\");" := by cbv
  have otherCompiles : compile ⟨false⟩ "var a 1(f 2 \"b\" )" =
      .ok "a = 1;f(2, \"b\");" := by cbv
  exact ⟨compiles, otherCompiles,
    compile_eq_iff_remembered_eq compiles otherCompiles⟩

end ParenCall
