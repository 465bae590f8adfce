import Mathlib.Algebra.Order.Field.Rat
import Mathlib.Algebra.Order.Floor.Ring
import Mathlib.Data.Int.Log
import Mathlib.Data.Rat.Floor
import Mathlib.Tactic.Linarith
import Mathlib.Tactic.Positivity
import Mathlib.Tactic.Ring

/-! Binary floating point: the numbers of a format, and the rounding to the nearest of them with
ties to even. There is no largest number: overflow is left out. -/

set_option autoImplicit false

namespace Sreality.Foundation

/-- To the nearest integer, half to even. -/
def roundHalfEven (value : ℚ) : ℤ :=
  let below := ⌊value⌋
  let part := value - below
  if part < 1 / 2 then below
  else if 1 / 2 < part then below + 1
  else if below % 2 = 0 then below
  else below + 1

theorem abs_roundHalfEven_sub_le (value : ℚ) : |(roundHalfEven value : ℚ) - value| ≤ 1 / 2 := by
  have low := Int.floor_le value
  have high := Int.lt_floor_add_one value
  unfold roundHalfEven
  dsimp only
  split_ifs with less more even <;> push_cast <;> rw [abs_le] <;> constructor <;> linarith

/-- No integer is nearer. -/
theorem abs_roundHalfEven_sub_le_abs_sub (value : ℚ) (other : ℤ) :
    |(roundHalfEven value : ℚ) - value| ≤ |(other : ℚ) - value| := by
  have low := Int.floor_le value
  have high := Int.lt_floor_add_one value
  rcases le_or_gt other ⌊value⌋ with under | above
  · have far : (other : ℚ) ≤ ⌊value⌋ := by exact_mod_cast under
    rw [abs_sub_comm (other : ℚ), abs_of_nonneg (by linarith : (0 : ℚ) ≤ value - other)]
    unfold roundHalfEven
    dsimp only
    split_ifs with less more even <;> push_cast <;> rw [abs_le] <;> constructor <;> linarith
  · have far : (⌊value⌋ : ℚ) + 1 ≤ other := by exact_mod_cast above
    rw [abs_of_nonneg (by linarith : (0 : ℚ) ≤ other - value)]
    unfold roundHalfEven
    dsimp only
    split_ifs with less more even <;> push_cast <;> rw [abs_le] <;> constructor <;> linarith

theorem roundHalfEven_intCast (value : ℤ) : roundHalfEven value = value := by
  have near := abs_roundHalfEven_sub_le_abs_sub (value : ℚ) value
  rw [sub_self, abs_zero] at near
  have same := sub_eq_zero.mp (abs_eq_zero.mp (le_antisymm near (abs_nonneg _)))
  exact_mod_cast same

theorem roundHalfEven_bounds {low high : ℤ} {value : ℚ} (least : (low : ℚ) ≤ value)
    (most : value ≤ high) : low ≤ roundHalfEven value ∧ roundHalfEven value ≤ high := by
  have below : low ≤ ⌊value⌋ := Int.le_floor.mpr least
  have floor : (⌊value⌋ : ℚ) ≤ value := Int.floor_le value
  have inside : ⌊value⌋ ≤ high := by exact_mod_cast floor.trans most
  -- Rounding up leaves the floor only where a part is left over it.
  have above : 0 < value - ⌊value⌋ → ⌊value⌋ + 1 ≤ high := by
    intro part
    have under : (⌊value⌋ : ℚ) < high := by linarith
    exact_mod_cast under
  unfold roundHalfEven
  dsimp only
  split_ifs with less more even
  · exact ⟨below, inside⟩
  · exact ⟨by omega, above (by linarith)⟩
  · exact ⟨below, inside⟩
  · exact ⟨by omega, above (by linarith)⟩

theorem roundHalfEven_neg (value : ℚ) : roundHalfEven (-value) = -roundHalfEven value := by
  have low := Int.floor_le value
  have high := Int.lt_floor_add_one value
  rcases eq_or_lt_of_le low with whole | part
  · rw [← whole, ← Int.cast_neg, roundHalfEven_intCast, roundHalfEven_intCast]
  · have floor : ⌊-value⌋ = -⌊value⌋ - 1 := by
      rw [Int.floor_eq_iff]
      push_cast
      constructor <;> linarith
    unfold roundHalfEven
    dsimp only
    rw [floor]
    push_cast
    split_ifs <;> first | omega | (exfalso; linarith)

/-- The digits after the leading one, and the exponent of the least spacing. -/
structure BinaryFormat where
  fraction : ℕ
  least : ℤ
  deriving DecidableEq

def binary32 : BinaryFormat := ⟨23, -149⟩
def binary64 : BinaryFormat := ⟨52, -1074⟩

namespace BinaryFormat

variable (format : BinaryFormat)

/-- The exponent of the spacing of the numbers about a value. -/
def exponent (value : ℚ) : ℤ := max (Int.log 2 |value| - format.fraction) format.least

def round (value : ℚ) : ℚ :=
  roundHalfEven (value / 2 ^ format.exponent value) * 2 ^ format.exponent value

theorem round_neg (value : ℚ) : format.round (-value) = -format.round value := by
  unfold round exponent
  rw [abs_neg, neg_div, roundHalfEven_neg]
  push_cast
  ring

/-- The numbers of the format. -/
def Holds (value : ℚ) : Prop :=
  ∃ significand exponent : ℤ, |significand| ≤ 2 ^ (format.fraction + 1) ∧
    format.least ≤ exponent ∧ value = significand * 2 ^ exponent

variable {format} {value other : ℚ}

theorem pow_pos (exponent : ℤ) : (0 : ℚ) < 2 ^ exponent := zpow_pos (by norm_num) exponent

theorem holds_zero : format.Holds 0 :=
  ⟨0, format.least, by simp, le_rfl, by simp⟩

theorem Holds.two_mul (held : format.Holds value) : format.Holds (value * 2) := by
  obtain ⟨significand, exponent, bounded, least, rfl⟩ := held
  refine ⟨significand, exponent + 1, bounded, by omega, ?_⟩
  rw [zpow_add_one₀ (by norm_num), mul_assoc]

theorem Holds.abs (held : format.Holds value) : format.Holds |value| := by
  obtain ⟨significand, exponent, bounded, least, rfl⟩ := held
  refine ⟨|significand|, exponent, by rwa [abs_abs], least, ?_⟩
  rw [abs_mul, abs_of_pos (zpow_pos (by norm_num) exponent : (0 : ℚ) < 2 ^ exponent), Int.cast_abs]

/-- A number on a coarser grid is on the finer one. -/
theorem exists_eq_mul_of_le {fine coarse : ℤ} (finer : fine ≤ coarse) (count : ℤ) :
    ∃ steps : ℤ, (count : ℚ) * 2 ^ coarse = steps * 2 ^ fine := by
  obtain ⟨apart, rfl⟩ := Int.le.dest finer
  refine ⟨count * 2 ^ apart, ?_⟩
  rw [zpow_add₀ (by norm_num), zpow_natCast]
  push_cast
  ring

/-- Rounding takes the nearest point of its grid. -/
theorem abs_round_sub_le_of_grid (format : BinaryFormat) (value : ℚ) (steps : ℤ) :
    |format.round value - value| ≤ |steps * 2 ^ format.exponent value - value| := by
  have positive := pow_pos (format.exponent value)
  have near := abs_roundHalfEven_sub_le_abs_sub (value / 2 ^ format.exponent value) steps
  have scaled : ∀ count : ℤ, |(count : ℚ) * 2 ^ format.exponent value - value| =
      |(count : ℚ) - value / 2 ^ format.exponent value| * 2 ^ format.exponent value := by
    intro count
    rw [← abs_of_pos positive, ← abs_mul, abs_of_pos positive, sub_mul,
      div_mul_cancel₀ _ positive.ne']
  unfold round
  rw [scaled, scaled]
  exact mul_le_mul_of_nonneg_right near positive.le

theorem lt_two_pow_exponent (value : ℚ) :
    |value| < 2 ^ (format.fraction + 1) * 2 ^ format.exponent value := by
  have below := Int.lt_zpow_succ_log_self (R := ℚ) (b := 2) (by norm_num) |value|
  have raised : Int.log 2 |value| + 1 ≤ (format.fraction + 1 : ℤ) + format.exponent value := by
    have most := le_max_left (Int.log 2 |value| - format.fraction) format.least
    unfold exponent
    omega
  calc |value| < 2 ^ (Int.log 2 |value| + 1) := by exact_mod_cast below
    _ ≤ 2 ^ ((format.fraction + 1 : ℤ) + format.exponent value) :=
        zpow_le_zpow_right₀ (by norm_num) raised
    _ = 2 ^ (format.fraction + 1) * 2 ^ format.exponent value := by
        rw [zpow_add₀ (by norm_num)]
        norm_cast

theorem round_holds (format : BinaryFormat) (value : ℚ) : format.Holds (format.round value) := by
  refine ⟨_, format.exponent value, ?_, le_max_right _ _, rfl⟩
  have positive := pow_pos (format.exponent value)
  have within : |value / 2 ^ format.exponent value| < 2 ^ (format.fraction + 1) := by
    rw [abs_div, abs_of_pos positive, div_lt_iff₀ positive]
    exact lt_two_pow_exponent value
  have near := abs_roundHalfEven_sub_le (value / 2 ^ format.exponent value)
  generalize value / 2 ^ format.exponent value = part at near within
  have under : |(roundHalfEven part : ℚ)| < 2 ^ (format.fraction + 1) + 1 := by
    have split := abs_add_le ((roundHalfEven part : ℚ) - part) part
    rw [sub_add_cancel] at split
    linarith
  exact Int.lt_add_one_iff.mp (by exact_mod_cast under)

/-- A number no larger than a grid point below the value is no nearer than it. -/
theorem abs_round_sub_le_of_edge {steps : ℤ}
    (edge : (steps : ℚ) * 2 ^ format.exponent value ≤ |value|)
    (small : |other| ≤ steps * 2 ^ format.exponent value) :
    |format.round value - value| ≤ |other - value| := by
  obtain ⟨low, high⟩ := abs_le.mp small
  rcases le_total 0 value with positive | negative
  · rw [abs_of_nonneg positive] at edge
    have near := abs_round_sub_le_of_grid format value steps
    rw [abs_sub_comm (_ * _), abs_of_nonneg (sub_nonneg.mpr edge)] at near
    rw [abs_sub_comm other]
    exact near.trans ((sub_le_sub_left high value).trans (le_abs_self _))
  · rw [abs_of_nonpos negative] at edge
    have near := abs_round_sub_le_of_grid format value (-steps)
    rw [Int.cast_neg, neg_mul, abs_of_nonneg (sub_nonneg.mpr (le_neg_of_le_neg edge))] at near
    exact near.trans ((sub_le_sub_right low value).trans (le_abs_self _))

/-- No number of the format is nearer. -/
theorem abs_round_sub_le (value : ℚ) (held : format.Holds other) :
    |format.round value - value| ≤ |other - value| := by
  obtain ⟨significand, exponent, bounded, _, rfl⟩ := held
  rcases le_or_gt (format.exponent value) exponent with coarse | fine
  · obtain ⟨steps, same⟩ := exists_eq_mul_of_le coarse significand
    rw [same]
    exact abs_round_sub_le_of_grid format value steps
  rcases eq_or_ne value 0 with rfl | nonzero
  · have near := abs_round_sub_le_of_grid format 0 0
    simp only [Int.cast_zero, zero_mul, sub_self, abs_zero] at near
    exact near.trans (abs_nonneg _)
  -- A number off the grid of the value is below the end of its binade, which is on the grid.
  have normal : format.exponent value = Int.log 2 |value| - format.fraction := by
    have most := le_max_left (Int.log 2 |value| - format.fraction) format.least
    unfold BinaryFormat.exponent at fine ⊢
    omega
  have grid : ((2 ^ format.fraction : ℤ) : ℚ) * 2 ^ format.exponent value =
      2 ^ Int.log 2 |value| := by
    rw [normal]
    push_cast
    rw [← zpow_natCast, ← zpow_add₀ (by norm_num)]
    congr 1
    ring
  have size : |(significand : ℚ)| ≤ 2 ^ (format.fraction + 1) := by exact_mod_cast bounded
  have raised : (format.fraction + 1 : ℤ) + exponent ≤ Int.log 2 |value| := by omega
  apply @abs_round_sub_le_of_edge _ _ _ (2 ^ format.fraction)
  · rw [grid]
    exact_mod_cast Int.zpow_log_le_self (R := ℚ) (b := 2) (by norm_num) (abs_pos.mpr nonzero)
  · rw [grid]
    calc |(significand : ℚ) * 2 ^ exponent| = |(significand : ℚ)| * 2 ^ exponent := by
          rw [abs_mul, abs_of_pos (pow_pos exponent)]
      _ ≤ 2 ^ (format.fraction + 1) * 2 ^ exponent :=
          mul_le_mul_of_nonneg_right size (pow_pos exponent).le
      _ = 2 ^ ((format.fraction + 1 : ℤ) + exponent) := by
          rw [zpow_add₀ (by norm_num)]
          norm_cast
      _ ≤ 2 ^ Int.log 2 |value| := zpow_le_zpow_right₀ (by norm_num) raised

theorem round_eq_self (held : format.Holds value) : format.round value = value := by
  have near := abs_round_sub_le value held
  rw [sub_self, abs_zero] at near
  exact sub_eq_zero.mp (abs_eq_zero.mp (le_antisymm near (abs_nonneg _)))

theorem round_round : format.round (format.round value) = format.round value :=
  round_eq_self (round_holds format value)

theorem round_mono (format : BinaryFormat) (le : value ≤ other) : format.round value ≤ format.round other := by
  by_contra more
  have less := not_le.mp more
  rcases le.lt_or_eq with lt | rfl
  · have near := abs_round_sub_le value (round_holds format other)
    have far := abs_round_sub_le other (round_holds format value)
    -- The nearer of the two is below their middle for `value` and above it for `other`.
    rcases abs_cases (format.round value - value) with ⟨s, _⟩ | ⟨s, _⟩ <;>
      rcases abs_cases (format.round other - value) with ⟨t, _⟩ | ⟨t, _⟩ <;>
      rcases abs_cases (format.round other - other) with ⟨u, _⟩ | ⟨u, _⟩ <;>
      rcases abs_cases (format.round value - other) with ⟨v, _⟩ | ⟨v, _⟩ <;>
      rw [s, t] at near <;> rw [u, v] at far <;> linarith
  · exact lt_irrefl _ less

/-- The relative error, of a number that is not below the least normal one. -/
theorem abs_round_sub_le_mul
    (normal : value = 0 ∨ 2 ^ (format.least + format.fraction) ≤ |value|) :
    |format.round value - value| ≤ |value| / 2 ^ (format.fraction + 1) := by
  rcases normal with rfl | normal
  · rw [round_eq_self holds_zero, sub_self, abs_zero, zero_div]
  have positive := pow_pos (format.exponent value)
  have nonzero : 0 < |value| := (pow_pos _).trans_le normal
  have log : format.least + format.fraction ≤ Int.log 2 |value| :=
    (Int.zpow_le_iff_le_log (by norm_num) nonzero).mp (by exact_mod_cast normal)
  have spacing : format.exponent value = Int.log 2 |value| - format.fraction := by
    unfold BinaryFormat.exponent
    exact max_eq_left (by omega)
  have near : |format.round value - value| ≤ 1 / 2 * 2 ^ format.exponent value := by
    have half := abs_roundHalfEven_sub_le (value / 2 ^ format.exponent value)
    have scaled : format.round value - value = ((roundHalfEven (value / 2 ^ format.exponent value) : ℚ)
        - value / 2 ^ format.exponent value) * 2 ^ format.exponent value := by
      rw [sub_mul, div_mul_cancel₀ _ positive.ne']
      rfl
    rw [scaled, abs_mul, abs_of_pos positive]
    exact mul_le_mul_of_nonneg_right half positive.le
  have least : (2 : ℚ) ^ Int.log 2 |value| ≤ |value| := by
    exact_mod_cast Int.zpow_log_le_self (R := ℚ) (b := 2) (by norm_num) nonzero
  calc |format.round value - value| ≤ 1 / 2 * 2 ^ format.exponent value := near
    _ = 2 ^ Int.log 2 |value| / 2 ^ (format.fraction + 1) := by
        rw [spacing, zpow_sub₀ (by norm_num), zpow_natCast, pow_succ]
        ring
    _ ≤ |value| / 2 ^ (format.fraction + 1) := by gcongr

theorem round_natCast (count : ℕ) (few : count ≤ 2 ^ (format.fraction + 1))
    (deep : format.least ≤ 0) : format.round count = count :=
  round_eq_self ⟨count, 0, by rw [Nat.abs_cast]; exact_mod_cast few, deep, by simp⟩

theorem natCast_le_round (count : ℕ) (few : count ≤ 2 ^ (format.fraction + 1))
    (deep : format.least ≤ 0) (least : count ≤ value) : count ≤ format.round value := by
  have less := round_mono format least
  rwa [round_natCast count few deep] at less

theorem round_le_natCast (count : ℕ) (few : count ≤ 2 ^ (format.fraction + 1))
    (deep : format.least ≤ 0) (most : value ≤ count) : format.round value ≤ count := by
  have less := round_mono format most
  rwa [round_natCast count few deep] at less

theorem round_zero : format.round 0 = 0 := round_eq_self holds_zero

end BinaryFormat

/-- A number of a format. -/
structure Binary (format : BinaryFormat) where
  value : ℚ
  exact : format.round value = value
  deriving DecidableEq

/-- `float` of Python and `double precision` of the database. -/
abbrev Float64 := Binary binary64

/-- `real` of the database. -/
abbrev Single := Binary binary32

namespace Binary

variable {format : BinaryFormat}

def ofRat (format : BinaryFormat) (value : ℚ) : Binary format :=
  ⟨format.round value, BinaryFormat.round_round⟩

theorem holds (number : Binary format) : format.Holds number.value := by
  have held := BinaryFormat.round_holds format number.value
  rwa [number.exact] at held

@[simp] theorem value_ofRat (value : ℚ) : (ofRat format value).value = format.round value := rfl

instance : Zero (Binary format) := ⟨ofRat format 0⟩
instance : Inhabited (Binary format) := ⟨0⟩
instance : Mul (Binary format) := ⟨fun one other => ofRat format (one.value * other.value)⟩
instance : Add (Binary format) := ⟨fun one other => ofRat format (one.value + other.value)⟩
instance : Sub (Binary format) := ⟨fun one other => ofRat format (one.value - other.value)⟩
instance : Div (Binary format) := ⟨fun one other => ofRat format (one.value / other.value)⟩

@[ext] theorem ext {one other : Binary format} (same : one.value = other.value) : one = other := by
  cases one
  cases other
  cases same
  rfl

instance : LinearOrder (Binary format) where
  le one other := one.value ≤ other.value
  le_refl one := le_refl one.value
  le_trans _ _ _ less more := le_trans (α := ℚ) less more
  le_antisymm _ _ less more := ext (le_antisymm less more)
  le_total one other := le_total one.value other.value
  toDecidableLE one other := inferInstanceAs (Decidable (one.value ≤ other.value))

theorem value_max (one other : Binary format) :
    (max one other).value = max one.value other.value := by
  rw [max_def, max_def]
  exact apply_ite Binary.value _ _ _

theorem value_min (one other : Binary format) :
    (min one other).value = min one.value other.value := by
  rw [min_def, min_def]
  exact apply_ite Binary.value _ _ _

/-- `abs` -/
def abs (number : Binary format) : Binary format where
  value := |number.value|
  exact := BinaryFormat.round_eq_self number.holds.abs

/-- The same number, or the nearest one of the other format. -/
def cast (number : Binary format) (other : BinaryFormat) : Binary other :=
  ofRat other number.value

/-- Nothing is lost in a format with more digits and a finer least spacing. -/
theorem value_cast {other : BinaryFormat} (digits : format.fraction ≤ other.fraction)
    (finer : other.least ≤ format.least) (number : Binary format) :
    (number.cast other).value = number.value := by
  obtain ⟨significand, exponent, bounded, least, same⟩ := number.holds
  have wide : (2 : ℤ) ^ (format.fraction + 1) ≤ 2 ^ (other.fraction + 1) :=
    pow_le_pow_right₀ (by norm_num) (by omega)
  exact BinaryFormat.round_eq_self ⟨significand, exponent, bounded.trans wide, finer.trans least, same⟩

@[simp] theorem value_mul (one other : Binary format) :
    (one * other).value = format.round (one.value * other.value) := rfl

end Binary

end Sreality.Foundation
