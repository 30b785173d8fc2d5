import ParenCall.FormReading
import ParenCall.PhraseLowering

/-!
# Well-formed lists of forms

Reading adds forms that no token stands for: a target is a name with a blank
and an equals sign after it, and a declaration ends with a semicolon.  A list
of neighbouring forms is well formed when these additions stand exactly where
reading puts them.  Then the tokens of the forms can be written down again by
leaving the additions out.

This file defines both notions and relates the two ways of looking ahead: to
the next form that is not layout, and to the next token that is not layout.
-/

namespace ParenCall

/-- Whether the next token after layout is a number or a string. -/
def literalFollows (tokens : List Token) : Bool :=
  (nearestSolid tokens).any Token.isLiteral

namespace Form

/-- Whether a form is layout only. -/
def isTrivia : Form → Bool
  | .blank | .newline => true
  | _ => false

/-- Whether a form is a number or a string. -/
def isLiteral : Form → Bool
  | .number _ | .string _ => true
  | _ => false

/-- Whether forms begin with layout and then a literal. -/
def literalNext : List Form → Bool
  | [] => false
  | form :: forms => form.isLiteral || form.isTrivia && literalNext forms

/-- The lists of neighbouring forms that reading can fill in a place.  The
keyword is a form of its own among arguments.  At the top level it begins a
declaration, and a semicolon stands only at the end of one. -/
inductive WellFormed : Place → List Form → Prop
  | nil {place : Place} : WellFormed place []
  | trivia {place : Place} {form : Form} {forms : List Form}
      (isTrivia : form.isTrivia) (tail : WellFormed place forms) :
      WellFormed place (form :: forms)
  | literal {place : Place} {form : Form} {forms : List Form}
      (isLiteral : form.isLiteral) (tail : WellFormed place forms) :
      WellFormed place (form :: forms)
  | equals {place : Place} {forms : List Form}
      (tail : WellFormed place forms) :
      WellFormed place (.equals :: forms)
  | call {place : Place} {callee : String} {arguments forms : List Form}
      (inner : WellFormed .arguments arguments)
      (tail : WellFormed place forms) :
      WellFormed place (.call callee arguments :: forms)
  | target {place : Place} {name : String} {forms : List Form}
      (next : literalNext forms) (tail : WellFormed place forms) :
      WellFormed place (.name name :: .blank :: .equals :: forms)
  | argumentVar {forms : List Form} (tail : WellFormed .arguments forms) :
      WellFormed .arguments (.var :: forms)
  | declaration {name : String} {literal : Form}
      {layout spacing forms : List Form}
      (layoutTrivia : ∀ form ∈ layout, form.isTrivia)
      (spacingTrivia : ∀ form ∈ spacing, form.isTrivia)
      (isLiteral : literal.isLiteral) (tail : WellFormed .topLevel forms) :
      WellFormed .topLevel
        (.var :: (layout ++ .name name :: .blank :: .equals ::
          (spacing ++ literal :: .semicolon :: forms)))

mutual

/-- The tokens of one form. -/
def unread : Form → List Token
  | .call callee arguments =>
      .leftParen :: .identifier callee ::
        (unreadAll arguments ++ [.rightParen])
  | .number digits => [.number digits]
  | .string content => [.string content]
  | .name identifier => [.identifier identifier]
  | .blank => [.blank]
  | .newline => [.newline]
  | .var => [.var]
  | .equals => [.equal]
  | .semicolon => []

/-- The tokens of neighbouring forms.  A name takes the two forms after it
along, because reading has added them. -/
def unreadAll : List Form → List Token
  | [] => []
  | .name identifier :: _ :: _ :: forms =>
      .identifier identifier :: unreadAll forms
  | .name identifier :: _ => [.identifier identifier]
  | form :: forms => unread form ++ unreadAll forms

end

theorem unreadAll_call (callee : String) (arguments forms : List Form) :
    unreadAll (.call callee arguments :: forms) =
      .leftParen :: .identifier callee ::
        (unreadAll arguments ++ .rightParen :: unreadAll forms) := by
  simp [unreadAll, unread]

theorem unreadAll_target (name : String) (forms : List Form) :
    unreadAll (.name name :: .blank :: .equals :: forms) =
      .identifier name :: unreadAll forms := by
  simp [unreadAll]

theorem unreadAll_equals (forms : List Form) :
    unreadAll (.equals :: forms) = .equal :: unreadAll forms := by
  simp [unreadAll, unread]

theorem unreadAll_var (forms : List Form) :
    unreadAll (.var :: forms) = .var :: unreadAll forms := by
  simp [unreadAll, unread]

theorem unreadAll_semicolon (forms : List Form) :
    unreadAll (.semicolon :: forms) = unreadAll forms := by
  simp [unreadAll, unread]

theorem unreadAll_trivia {form : Form} (isTrivia : form.isTrivia)
    (forms : List Form) :
    unreadAll (form :: forms) = unread form ++ unreadAll forms := by
  cases form <;> simp_all [Form.isTrivia, unreadAll]

theorem unreadAll_literal {form : Form} (isLiteral : form.isLiteral)
    (forms : List Form) :
    unreadAll (form :: forms) = unread form ++ unreadAll forms := by
  cases form <;> simp_all [Form.isLiteral, unreadAll]

theorem unreadAll_layout_append {layout : List Form}
    (layoutTrivia : ∀ form ∈ layout, form.isTrivia) (forms : List Form) :
    unreadAll (layout ++ forms) = unreadAll layout ++ unreadAll forms := by
  induction layout with
  | nil => rfl
  | cons form layout induction =>
      have isTrivia : form.isTrivia := layoutTrivia form (by simp)
      rw [List.cons_append, unreadAll_trivia isTrivia,
        unreadAll_trivia isTrivia, List.append_assoc,
        induction fun other member => layoutTrivia other (by simp [member])]

/-- A declaration has a token for each of its forms but those that reading
adds. -/
theorem unreadAll_declaration {layout spacing : List Form} {literal : Form}
    (layoutTrivia : ∀ form ∈ layout, form.isTrivia)
    (spacingTrivia : ∀ form ∈ spacing, form.isTrivia)
    (isLiteral : literal.isLiteral) (name : String) (forms : List Form) :
    unreadAll
        (.var :: (layout ++ .name name :: .blank :: .equals ::
          (spacing ++ literal :: .semicolon :: forms))) =
      .var :: (unreadAll layout ++ .identifier name ::
        (unreadAll spacing ++ (literal.unread ++ unreadAll forms))) := by
  rw [unreadAll_var, unreadAll_layout_append layoutTrivia, unreadAll_target,
    unreadAll_layout_append spacingTrivia, unreadAll_literal isLiteral,
    unreadAll_semicolon]

theorem literalNext_layout_append {layout : List Form} {literal : Form}
    (layoutTrivia : ∀ form ∈ layout, form.isTrivia)
    (isLiteral : literal.isLiteral) (forms : List Form) :
    literalNext (layout ++ literal :: forms) := by
  induction layout with
  | nil => simp [literalNext, isLiteral]
  | cons form layout induction =>
      simp only [List.mem_cons, forall_eq_or_imp] at layoutTrivia
      simp [literalNext, layoutTrivia.1, induction layoutTrivia.2]

theorem exists_unread_of_isTrivia {form : Form} (isTrivia : form.isTrivia) :
    ∃ token : Token, form.unread = [token] ∧ token.isTrivia := by
  cases form <;> simp_all [Form.isTrivia, unread, Token.isTrivia]

theorem exists_unread_of_isLiteral {form : Form}
    (isLiteral : form.isLiteral) :
    ∃ token : Token, form.unread = [token] ∧ token.isLiteral := by
  cases form <;> simp_all [Form.isLiteral, unread, Token.isLiteral]

theorem exists_trivia_unread {token : Token} (isTrivia : token.isTrivia) :
    ∃ form : Form, form.isTrivia ∧ form.unread = [token] := by
  cases token with
  | blank => exact ⟨.blank, rfl, rfl⟩
  | newline => exact ⟨.newline, rfl, rfl⟩
  | _ => simp [Token.isTrivia] at isTrivia

theorem exists_literal_unread {token : Token} (isLiteral : token.isLiteral) :
    ∃ form : Form, form.isLiteral ∧ form.unread = [token] := by
  cases token with
  | number digits => exact ⟨.number digits, rfl, rfl⟩
  | string content => exact ⟨.string content, rfl, rfl⟩
  | _ => simp [Token.isLiteral] at isLiteral

end Form

namespace Token

theorem isTrivia_iff {token : Token} :
    token.isTrivia ↔ token = .blank ∨ token = .newline := by
  cases token <;> simp [isTrivia]

theorem isLiteral_iff {token : Token} :
    token.isLiteral ↔
      (∃ digits, token = .number digits) ∨
        ∃ content, token = .string content := by
  cases token <;> simp [isLiteral]

end Token

section LookingAhead

@[simp] theorem nearestSolid_nil : nearestSolid [] = none :=
  rfl

@[simp] theorem nearestSolid_cons (token : Token) (tokens : List Token) :
    nearestSolid (token :: tokens) =
      if token.isTrivia then nearestSolid tokens else some token := by
  cases isTrivia : token.isTrivia <;> simp [nearestSolid, isTrivia]

/-- Nothing but layout stands in front of the nearest token that is not
layout. -/
theorem nearestSolid_eq_some_iff {tokens : List Token} {token : Token} :
    nearestSolid tokens = some token ↔
      token.isTrivia = false ∧
        ∃ layout rest, tokens = layout ++ token :: rest ∧
          ∀ other ∈ layout, other.isTrivia := by
  unfold nearestSolid
  rw [List.find?_eq_some_iff_append]
  simp

theorem nearestSolid_append (first second : List Token) :
    nearestSolid (first ++ second) =
      (nearestSolid first).or (nearestSolid second) := by
  exact List.find?_append

theorem nearestSolid_literal_append {form : Form} (isLiteral : form.isLiteral)
    (tokens : List Token) :
    nearestSolid (form.unread ++ tokens) ≠ some .leftParen := by
  cases form with
  | number | string => simp [Form.unread, Token.isTrivia]
  | _ => simp [Form.isLiteral] at isLiteral

@[simp] theorem literalFollows_nil : literalFollows [] = false :=
  rfl

@[simp] theorem literalFollows_cons (token : Token) (tokens : List Token) :
    literalFollows (token :: tokens) =
      if token.isTrivia then literalFollows tokens else token.isLiteral := by
  cases isTrivia : token.isTrivia <;> simp [literalFollows, isTrivia]

theorem isTrivia_eq_false_of_isLiteral {token : Token}
    (isLiteral : token.isLiteral) : token.isTrivia = false := by
  cases token <;> simp_all [Token.isLiteral, Token.isTrivia]

/-- Looking ahead for a literal is checking a target. -/
theorem checkTarget_eq_ok_iff (name : String) (rest : List Token) :
    checkTarget name rest = .ok () ↔ literalFollows rest = true := by
  unfold checkTarget literalFollows
  cases nearestSolid rest with
  | none => simp
  | some next => by_cases isLiteral : next.isLiteral <;> simp [isLiteral]

/-- The literal that follows forms is the literal that follows their
tokens. -/
theorem literalFollows_unreadAll_append {forms : List Form}
    (next : Form.literalNext forms) (rest : List Token) :
    literalFollows (Form.unreadAll forms ++ rest) = true := by
  induction forms with
  | nil => simp [Form.literalNext] at next
  | cons form forms induction =>
      simp only [Form.literalNext, Bool.or_eq_true, Bool.and_eq_true] at next
      rcases next with isLiteral | ⟨isTrivia, next⟩
      · obtain ⟨token, tokens, tokenLiteral⟩ :=
          Form.exists_unread_of_isLiteral isLiteral
        rw [Form.unreadAll_literal isLiteral, tokens]
        simp [tokenLiteral, isTrivia_eq_false_of_isLiteral tokenLiteral]
      · obtain ⟨token, tokens, tokenTrivia⟩ :=
          Form.exists_unread_of_isTrivia isTrivia
        rw [Form.unreadAll_trivia isTrivia, tokens]
        simp [tokenTrivia, induction next]

/-- A literal after the tokens of well-formed forms is one of these forms, if
what follows them begins with neither a literal nor layout. -/
theorem literalNext_of_literalFollows {place : Place} {forms : List Form}
    (wellFormed : Form.WellFormed place forms) {rest : List Token}
    (stops : rest = [] ∨ ∃ following, rest = .rightParen :: following)
    (follows : literalFollows (Form.unreadAll forms ++ rest)) :
    Form.literalNext forms := by
  induction wellFormed with
  | nil =>
      rcases stops with rfl | ⟨following, rfl⟩ <;>
        simp [Form.unreadAll, Token.isTrivia, Token.isLiteral] at follows
  | trivia isTrivia tail induction =>
      obtain ⟨token, tokens, tokenTrivia⟩ :=
        Form.exists_unread_of_isTrivia isTrivia
      rw [Form.unreadAll_trivia isTrivia, tokens] at follows
      simp only [List.cons_append, List.nil_append, literalFollows_cons,
        tokenTrivia, if_true] at follows
      simp [Form.literalNext, isTrivia, induction follows]
  | literal isLiteral tail => simp [Form.literalNext, isLiteral]
  -- Every other form begins with a token that is neither layout nor a literal.
  | equals tail =>
      simp [Form.unreadAll_equals, Token.isTrivia, Token.isLiteral] at follows
  | call inner tail =>
      simp [Form.unreadAll_call, Token.isTrivia, Token.isLiteral] at follows
  | target next tail =>
      simp [Form.unreadAll_target, Token.isTrivia, Token.isLiteral] at follows
  | argumentVar tail =>
      simp [Form.unreadAll_var, Token.isTrivia, Token.isLiteral] at follows
  | declaration layoutTrivia spacingTrivia isLiteral tail =>
      simp [Form.unreadAll_var, Token.isTrivia, Token.isLiteral] at follows

end LookingAhead

end ParenCall
