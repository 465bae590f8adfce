import Mathlib.Data.List.Basic

/-! SQL's three-valued logic: `none` is NULL. A filter keeps a row when its predicate is true,
and a disjunction with a NULL side is not false, so a complement has to coalesce it. -/

set_option autoImplicit false

namespace Sreality.Foundation

/-- `AND` of the terms; true when there is none. -/
def allOf : List (Option Bool) → Option Bool
  | [] => some true
  | some false :: _ => some false
  | some true :: rest => allOf rest
  | none :: rest => if allOf rest = some false then some false else none

/-- `OR` of the terms; false when there is none. -/
def anyOf : List (Option Bool) → Option Bool
  | [] => some false
  | some true :: _ => some true
  | some false :: rest => anyOf rest
  | none :: rest => if anyOf rest = some true then some true else none

theorem allOf_eq_true {terms : List (Option Bool)} :
    allOf terms = some true ↔ ∀ term ∈ terms, term = some true := by
  induction terms with
  | nil => simp [allOf]
  | cons term rest ih =>
      cases term with
      | none =>
          simp only [allOf, List.forall_mem_cons, reduceCtorEq, false_and, iff_false]
          split_ifs <;> simp
      | some value =>
          cases value with
          | false => simp [allOf]
          | true => simpa [allOf] using ih

theorem anyOf_eq_true {terms : List (Option Bool)} :
    anyOf terms = some true ↔ some true ∈ terms := by
  induction terms with
  | nil => simp [anyOf]
  | cons term rest ih =>
      cases term with
      | none =>
          rw [List.mem_cons, anyOf, ← ih]
          split_ifs with held <;> simp [held]
      | some value =>
          cases value with
          | false => simpa [anyOf] using ih
          | true => simp [anyOf]

end Sreality.Foundation
