/-!
# Ranges of code points

A class of characters that a character table lists is kept as the inclusive
ranges of its code points.
-/

namespace ParenCall

/-- The code points from `first` to `last`, both included. -/
structure CodePointRange where
  first : Nat
  last : Nat
  deriving DecidableEq

namespace CodePointRange

/-- Whether the code point of `character` lies in the range. -/
def contains (range : CodePointRange) (character : Char) : Bool :=
  range.first ≤ character.toNat && character.toNat ≤ range.last

@[simp] theorem contains_eq_true_iff (range : CodePointRange)
    (character : Char) :
    range.contains character = true ↔
      range.first ≤ character.toNat ∧ character.toNat ≤ range.last := by
  simp [contains]

end CodePointRange

end ParenCall
