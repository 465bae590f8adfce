import Mathlib.Algebra.Order.Field.Rat
import Mathlib.Data.Rat.Floor
import Mathlib.Order.Bounds.Basic
import Mathlib.Tactic.FieldSimp
import Mathlib.Tactic.Linarith

/-! The times of a clock that strikes every `period` at a phase: the first strike after a time,
and the first that is no earlier. -/

set_option autoImplicit false

namespace Sreality.Foundation

variable {period phase time : ℚ}

def OnGrid (period phase time : ℚ) : Prop :=
  ∃ strike : ℤ, time = strike * period + phase

def firstAfter (period phase time : ℚ) : ℚ :=
  (⌊(time - phase) / period⌋ + 1) * period + phase

def firstFrom (period phase time : ℚ) : ℚ :=
  ⌈(time - phase) / period⌉ * period + phase

theorem firstAfter_isLeast (forward : 0 < period) :
    IsLeast {other | time < other ∧ OnGrid period phase other} (firstAfter period phase time) := by
  refine ⟨⟨?_, ⌊(time - phase) / period⌋ + 1, ?_⟩, ?_⟩
  · have passed := (div_lt_iff₀ forward).mp (Int.lt_floor_add_one ((time - phase) / period))
    unfold firstAfter
    linarith
  · unfold firstAfter
    push_cast
    ring
  · rintro other ⟨later, strike, rfl⟩
    have passed : (time - phase) / period < strike := by
      rw [div_lt_iff₀ forward]
      linarith
    have counted : ⌊(time - phase) / period⌋ + 1 ≤ strike := Int.floor_lt.mpr passed
    have scaled : ((⌊(time - phase) / period⌋ + 1 : ℤ) : ℚ) * period ≤ strike * period :=
      mul_le_mul_of_nonneg_right (by exact_mod_cast counted) forward.le
    unfold firstAfter
    push_cast at scaled
    linarith

theorem firstFrom_isLeast (forward : 0 < period) :
    IsLeast {other | time ≤ other ∧ OnGrid period phase other} (firstFrom period phase time) := by
  refine ⟨⟨?_, ⌈(time - phase) / period⌉, rfl⟩, ?_⟩
  · have reached := (div_le_iff₀ forward).mp (Int.le_ceil ((time - phase) / period))
    unfold firstFrom
    linarith
  · rintro other ⟨later, strike, rfl⟩
    have reached : (time - phase) / period ≤ strike := by
      rw [div_le_iff₀ forward]
      linarith
    have counted : ⌈(time - phase) / period⌉ ≤ strike := Int.ceil_le.mpr reached
    have scaled : (⌈(time - phase) / period⌉ : ℚ) * period ≤ strike * period :=
      mul_le_mul_of_nonneg_right (by exact_mod_cast counted) forward.le
    unfold firstFrom
    linarith

theorem lt_firstAfter (forward : 0 < period) (phase time : ℚ) :
    time < firstAfter period phase time :=
  (firstAfter_isLeast forward).1.1

end Sreality.Foundation
