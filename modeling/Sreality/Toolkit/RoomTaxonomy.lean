import Mathlib.Data.String.Basic

/-! Cross-category merge compatibility (`toolkit/room_taxonomy.py`): which two
`category_main` values may be one property. -/

set_option autoImplicit false

namespace Sreality.Toolkit

/-- The sanctioned cross-types, each an unordered pair. -/
def crossTypeOk : List (String × String) :=
  [("dum", "komercni"), ("pozemek", "dum"), ("pozemek", "komercni"), ("byt", "komercni")]

/-- Equal, either unknown, or one of the four pairs. -/
def categoryMainCompatible : Option String → Option String → Bool
  | some left, some right =>
      left == right || crossTypeOk.contains (left, right) || crossTypeOk.contains (right, left)
  | _, _ => true

theorem categoryMainCompatible_comm (left right : Option String) :
    categoryMainCompatible left right = categoryMainCompatible right left := by
  cases left with
  | none => cases right <;> rfl
  | some left =>
      cases right with
      | none => rfl
      | some right =>
          simp only [categoryMainCompatible, Bool.or_assoc, BEq.comm]
          rw [Bool.or_comm (crossTypeOk.contains (left, right))]

@[simp] theorem categoryMainCompatible_none_left (right : Option String) :
    categoryMainCompatible none right = true := by
  cases right <;> rfl

@[simp] theorem categoryMainCompatible_none_right (left : Option String) :
    categoryMainCompatible left none = true := by
  cases left <;> rfl

@[simp] theorem categoryMainCompatible_self (category : Option String) :
    categoryMainCompatible category category = true := by
  cases category <;> simp [categoryMainCompatible]

end Sreality.Toolkit
