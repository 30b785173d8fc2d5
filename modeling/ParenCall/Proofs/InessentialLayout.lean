import ParenCall.Proofs.FreshReadings
import ParenCall.Proofs.ReadingWellFormedForms

/-!
# Inessential layout

Layout between tokens does not change what they mean.  The only layout that
counts is the token right after a left parenthesis, where it stands in the place
of the callee.  Without all other layout, tokens are read to the same forms up
to layout, or they fail with the same error.

A reading is bare once the layout has been deleted from the forms that it has
added.  What a step does to the bare reading does not depend on the layout, and
of the tokens around the one that it takes it sees only the nearest ones that
are no layout.  A step that takes layout leaves the bare reading as it was.
-/

namespace ParenCall

/-- The tokens without layout, but with each layout token that follows a left
parenthesis at once.  `previous` is the token before them. -/
def essentialAfter (previous : Option Token) : List Token → List Token
  | [] => []
  | token :: rest =>
      if token.isTrivia ∧ previous ≠ some .leftParen then
        essentialAfter (some token) rest
      else
        token :: essentialAfter (some token) rest

/-- The tokens that reading depends on. -/
def essential (tokens : List Token) : List Token :=
  essentialAfter none tokens

-- Of the layout after a parenthesis only the first token stays.
example :
    essential [.blank, .leftParen, .newline, .blank, .identifier "f", .blank,
        .rightParen] =
      [.leftParen, .newline, .identifier "f", .rightParen] := by
  decide

theorem nearestSolid_essentialAfter (previous : Option Token)
    (tokens : List Token) :
    nearestSolid (essentialAfter previous tokens) = nearestSolid tokens := by
  induction tokens generalizing previous with
  | nil => rfl
  | cons token rest induction =>
      unfold essentialAfter
      split
      · rename_i loose
        rw [induction, nearestSolid_cons, if_pos loose.1]
      · rw [nearestSolid_cons, nearestSolid_cons, induction]

namespace Form

/-- Forms without their layout, at any depth. -/
def withoutLayout : List Form → List Form
  | [] => []
  | .blank :: forms => withoutLayout forms
  | .newline :: forms => withoutLayout forms
  | .call callee arguments :: forms =>
      .call callee (withoutLayout arguments) :: withoutLayout forms
  | form :: forms => form :: withoutLayout forms

@[simp] theorem withoutLayout_append (first second : List Form) :
    withoutLayout (first ++ second) =
      withoutLayout first ++ withoutLayout second := by
  induction first with
  | nil => simp [withoutLayout]
  | cons form first induction =>
      cases form <;> simp [withoutLayout, induction]

@[simp] theorem withoutLayout_reverse (forms : List Form) :
    withoutLayout forms.reverse = (withoutLayout forms).reverse := by
  induction forms with
  | nil => simp [withoutLayout]
  | cons form forms induction =>
      cases form <;> simp [withoutLayout, induction]

@[simp] theorem withoutLayout_withoutLayout (forms : List Form) :
    withoutLayout (withoutLayout forms) = withoutLayout forms := by
  induction forms using withoutLayout.induct with
  | case1 => simp [withoutLayout]
  | case2 forms induction => simpa [withoutLayout] using induction
  | case3 forms induction => simpa [withoutLayout] using induction
  | case4 callee arguments forms inner tail =>
      simp [withoutLayout, inner, tail]
  | case5 form forms notBlank notNewline notCall tail =>
      cases form with
      | blank => exact absurd rfl notBlank
      | newline => exact absurd rfl notNewline
      | call callee arguments => exact absurd rfl (notCall callee arguments)
      | _ => simp [withoutLayout, tail]

end Form

open Form (withoutLayout)

/-- An open call without the layout before it. -/
def OpenCall.bare (call : OpenCall) : OpenCall :=
  { call with preceding := withoutLayout call.preceding }

namespace Reading

/-- A reading without the layout that it has added. -/
def bare (reading : Reading) : Reading :=
  { reading with
    latest := withoutLayout reading.latest
    calls := reading.calls.map OpenCall.bare }

variable (reading : Reading)

@[simp] theorem expecting_bare : reading.bare.expecting = reading.expecting :=
  rfl

@[simp] theorem depth_bare : reading.bare.depth = reading.depth :=
  rfl

@[simp] theorem forms_bare :
    reading.bare.forms = withoutLayout reading.forms := by
  simp [forms, bare]

@[simp] theorem bare_bare : reading.bare.bare = reading.bare := by
  simp [bare, OpenCall.bare, Function.comp_def]

@[simp] theorem bare_add (forms : List Form) :
    (reading.add forms).bare = reading.bare.add (withoutLayout forms) := by
  simp [bare, add]

@[simp] theorem bare_expecting (expecting : Expectation) :
    bare { reading with expecting := expecting } =
      { reading.bare with expecting := expecting } :=
  rfl

@[simp] theorem bare_openCall (callee : String) :
    (reading.openCall callee).bare = reading.bare.openCall callee := by
  simp [bare, openCall, OpenCall.bare, withoutLayout]

theorem closeCall_bare :
    reading.bare.closeCall = reading.closeCall.map bare := by
  cases callsEq : reading.calls with
  | nil => simp [closeCall, bare, callsEq, Except.map]
  | cons call calls =>
      simp [closeCall, bare, callsEq, Except.map, OpenCall.bare, withoutLayout,
        forms]

theorem addTarget_bare (name : String) (rest : List Token)
    (expecting : Expectation) :
    (reading.bare.addTarget name rest expecting).map bare =
      (reading.addTarget name rest expecting).map bare := by
  unfold addTarget
  cases checkTarget name rest <;> simp [Except.map]

theorem bare_addVar : reading.addVar.bare = reading.bare.addVar := by
  unfold addVar
  rw [depth_bare]
  split <;> simp [withoutLayout]

theorem bare_addLiteral {literal : Form} (isLiteral : literal.isLiteral) :
    (reading.addLiteral literal).bare = reading.bare.addLiteral literal := by
  cases literal with
  | number | string =>
      unfold addLiteral
      rw [expecting_bare]
      split <;> simp [withoutLayout]
  | _ => cases isLiteral

theorem takeForm_bare (before : List Token) (token : Token)
    (rest : List Token) :
    (reading.bare.takeForm before token rest).map bare =
      (reading.takeForm before token rest).map bare := by
  cases token with
  | blank | newline | equal => simp [takeForm, Except.map]
  | leftParen => simp only [takeForm, Except.map, bare_expecting, bare_bare]
  | number | string =>
      simp only [takeForm, Except.map]
      rw [bare_addLiteral _ rfl, bare_addLiteral _ rfl, bare_bare]
  | identifier name =>
      simp only [takeForm, expecting_bare]
      split
      · rfl
      · exact addTarget_bare reading name rest _
  | rightParen =>
      simp only [takeForm, closeCall_bare]
      cases reading.closeCall <;> simp [Except.map]
  | var => simp [takeForm, Except.map, bare_addVar]

/-- What a step does to a bare reading does not depend on layout. -/
theorem take_bare (before : List Token) (token : Token) (rest : List Token) :
    (reading.bare.take before token rest).map bare =
      (reading.take before token rest).map bare := by
  unfold take
  rw [expecting_bare]
  cases reading.expecting with
  | form | value => exact takeForm_bare reading before token rest
  | callee => cases token <;> simp [takeCallee, Except.map]
  | target =>
      cases token with
      | identifier name => exact addTarget_bare reading name rest _
      | _ => simp [takeTarget, Except.map]

theorem finish_bare :
    reading.bare.finish = reading.finish.map withoutLayout := by
  cases callsEq : reading.calls <;>
    cases expecting : reading.expecting <;>
      simp [finish, bare, callsEq, expecting, Except.map, OpenCall.bare, forms]

/-- A step sees only the nearest tokens that are no layout. -/
theorem take_congr {before rest others following : List Token}
    (sameBefore : nearestSolid before = nearestSolid others)
    (sameRest : nearestSolid rest = nearestSolid following) (token : Token) :
    reading.take before token rest = reading.take others token following := by
  have sameTarget : ∀ name expecting,
      reading.addTarget name rest expecting =
        reading.addTarget name following expecting := by
    intro name expecting
    simp only [addTarget, checkTarget, sameRest]
  cases token <;>
    simp only [take, takeForm, takeTarget, takeCallee, sameBefore, sameTarget]

/-- Layout leaves a bare reading as it was. -/
theorem bare_take_trivia {token : Token} (isTrivia : token.isTrivia)
    (notCallee : reading.expecting ≠ .callee) (before rest : List Token) :
    ∃ next, reading.take before token rest = .ok next ∧
      next.bare = reading.bare := by
  have unchanged : reading.bare.add [] = reading.bare := rfl
  cases token with
  | blank | newline =>
      cases expecting : reading.expecting <;>
        simp_all [take, takeForm, takeTarget, withoutLayout]
  | _ => simp [Token.isTrivia] at isTrivia

/-- Readings that differ in layout only take a token alike. -/
theorem take_of_bare_eq {first second : Reading}
    (alike : first.bare = second.bare)
    {before rest others following : List Token}
    (sameBefore : nearestSolid before = nearestSolid others)
    (sameRest : nearestSolid rest = nearestSolid following) (token : Token) :
    (first.take before token rest).map bare =
      (second.take others token following).map bare := by
  rw [← take_bare, alike, take_bare, take_congr second sameBefore sameRest]

end Reading

/-- A fresh reading answers, up to layout, as a reading does that differs from
it in layout only and takes only the essential ones of its tokens. -/
theorem Reader.run_essentialAfter {tokens : List Token}
    {first second : Reading} {before others : List Token}
    (fresh : first.Fresh before tokens) (alike : first.bare = second.bare)
    (sameBefore : nearestSolid before = nearestSolid others) :
    (run second others (essentialAfter before.head? tokens)).1.map
        withoutLayout =
      (run first before tokens).1.map withoutLayout := by
  induction tokens generalizing first second before others with
  | nil =>
      simp only [essentialAfter, run]
      rw [← Reading.finish_bare, ← alike, Reading.finish_bare]
  | cons token rest induction =>
      by_cases loose : token.isTrivia ∧ before.head? ≠ some .leftParen
      · -- The token is deleted, and only the first reading takes a step.
        have notCallee : first.expecting ≠ .callee :=
          mt fresh.callee_iff.mp loose.2
        obtain ⟨next, takes, unchanged⟩ :=
          first.bare_take_trivia loose.1 notCallee before rest
        rw [essentialAfter, if_pos loose, run_cons_of_take takes]
        refine induction (fresh.take takes) (unchanged.trans alike) ?_
        rw [nearestSolid_cons, if_pos loose.1, sameBefore]
      · have sameRest := nearestSolid_essentialAfter (some token) rest
        have same :=
          Reading.take_of_bare_eq alike sameBefore sameRest.symm token
        rw [essentialAfter, if_neg loose]
        cases takes : first.take before token rest <;>
          cases otherTakes : second.take others token
            (essentialAfter (some token) rest) <;>
          rw [takes, otherTakes] at same
        case error.error =>
          cases same
          simp [run, takes, otherTakes]
        case error.ok => cases same
        case ok.error => cases same
        case ok.ok next other =>
          rw [run_cons_of_take takes, run_cons_of_take otherTakes]
          refine induction (fresh.take takes) (Except.ok.inj same) ?_
          rw [nearestSolid_cons, nearestSolid_cons, sameBefore]

theorem readForms_essential (tokens : List Token) :
    (readForms (essential tokens)).map withoutLayout =
      (readForms tokens).map withoutLayout :=
  Reader.run_essentialAfter (Reading.fresh_start tokens) rfl rfl

/-- Tokens and their essential ones are read to the same forms up to layout, or
both fail with the same error.  So all lists of tokens with the same essential
ones are read alike. -/
theorem readForms_eq_of_essential_eq (tokens : List Token) :
    (readForms (essential tokens)).map withoutLayout =
        (readForms tokens).map withoutLayout ∧
      ∀ others, essential others = essential tokens →
        (readForms others).map withoutLayout =
          (readForms tokens).map withoutLayout := by
  refine ⟨readForms_essential tokens, ?_⟩
  intro others same
  rw [← readForms_essential others, same, readForms_essential]

theorem readForms_eq_of_essential_eq_moved_layout :
    essential [.newline, .leftParen, .identifier "f", .number "1", .blank,
          .rightParen] =
        essential [.leftParen, .identifier "f", .blank, .number "1",
          .rightParen] ∧
      readForms [.leftParen, .identifier "f", .blank, .number "1",
          .rightParen] =
        .ok [.call "f" [.blank, .number "1"]] ∧
      (readForms [.newline, .leftParen, .identifier "f", .number "1", .blank,
          .rightParen]).map withoutLayout =
        (readForms [.leftParen, .identifier "f", .blank, .number "1",
          .rightParen]).map withoutLayout := by
  refine ⟨by decide, rfl, ?_⟩
  exact (readForms_eq_of_essential_eq _).2 _ (by decide)

end ParenCall
