import Sreality.Scraper.Sanitizers

/-! Every integer that comes through the passes can be stored, and every area but a float whose
decimal the column rounds to nothing or past its range. -/

set_option autoImplicit false

namespace Sreality.Scraper.Sanitizers

open Foundation

/-! ### Rounding -/

/-- The magnitude of a rounded numeral, in tenths. -/
theorem abs_roundTenth (value : ℚ) : |roundTenth value| = (⌊|value| * 10 + 1 / 2⌋ : ℚ) / 10 := by
  have counted : ∀ {magnitude : ℚ}, 0 ≤ magnitude →
      |(⌊magnitude * 10 + 1 / 2⌋ : ℚ) / 10| = (⌊magnitude * 10 + 1 / 2⌋ : ℚ) / 10 := by
    intro magnitude positive
    have floor : 0 ≤ ⌊magnitude * 10 + 1 / 2⌋ := Int.floor_nonneg.mpr (by linarith)
    have cast : (0 : ℚ) ≤ ⌊magnitude * 10 + 1 / 2⌋ := by exact_mod_cast floor
    exact abs_of_nonneg (by linarith)
  unfold roundTenth
  split_ifs with sign
  · rw [abs_of_nonneg sign]
    exact counted sign
  · have negative : value < 0 := not_le.mp sign
    rw [abs_of_neg negative, abs_neg]
    exact counted (by linarith)

theorem roundTenth_ne_zero {value : ℚ} : roundTenth value ≠ 0 ↔ 1 / 20 ≤ |value| := by
  rw [← abs_pos, abs_roundTenth]
  constructor
  · intro positive
    have one : (1 : ℤ) ≤ ⌊|value| * 10 + 1 / 2⌋ := by
      have scaled : (0 : ℚ) < ⌊|value| * 10 + 1 / 2⌋ := by linarith
      exact_mod_cast scaled
    have reached : (1 : ℚ) ≤ |value| * 10 + 1 / 2 := by exact_mod_cast Int.le_floor.mp one
    linarith
  · intro large
    have one : (1 : ℤ) ≤ ⌊|value| * 10 + 1 / 2⌋ := Int.le_floor.mpr (by push_cast; linarith)
    have cast : (1 : ℚ) ≤ ⌊|value| * 10 + 1 / 2⌋ := by exact_mod_cast one
    linarith

theorem abs_roundTenth_lt {value : ℚ} {bound : ℤ} :
    |roundTenth value| < bound ↔ |value| < bound - 1 / 20 := by
  rw [abs_roundTenth]
  constructor
  · intro under
    have counted : ⌊|value| * 10 + 1 / 2⌋ < bound * 10 := by
      have scaled : (⌊|value| * 10 + 1 / 2⌋ : ℚ) < bound * 10 := by linarith
      exact_mod_cast scaled
    have reached : |value| * 10 + 1 / 2 < ((bound * 10 : ℤ) : ℚ) := Int.floor_lt.mp counted
    push_cast at reached
    linarith
  · intro under
    have counted : ⌊|value| * 10 + 1 / 2⌋ < bound * 10 :=
      Int.floor_lt.mpr (by push_cast; linarith)
    have cast : (⌊|value| * 10 + 1 / 2⌋ : ℚ) < bound * 10 := by exact_mod_cast counted
    linarith

theorem roundTenth_int (value : ℤ) : roundTenth value = value := by
  have whole : ∀ count : ℤ, ⌊(count : ℚ) * 10 + 1 / 2⌋ = count * 10 := by
    intro count
    rw [Int.floor_eq_iff]
    push_cast
    constructor <;> linarith
  unfold roundTenth
  split_ifs with sign
  · rw [whole]
    push_cast
    ring
  · rw [← Int.cast_neg, whole]
    push_cast
    ring

/-! ### What comes through -/

/-- Nothing, or an integer of the column's range. -/
def HoldsInt4 (value : Option PyValue) : Prop :=
  ∀ held ∈ value, ∃ number, held = .int number ∧ int4Min ≤ number ∧ number ≤ int4Max

/-- Nothing, or a finite number that stays in the column's range when it is rounded, and is not
nothing then. -/
def HoldsArea (column : NumericColumn) (value : Option PyValue) : Prop :=
  ∀ held ∈ value, ∃ numeral, held.numeral = some numeral ∧
    |roundTenth numeral| < 10 ^ (column.precision - 1) ∧ roundTenth numeral ≠ 0

/-- Nothing, or an integer between the caps. -/
def HoldsPrice (value : Option PyValue) : Prop :=
  ∀ held ∈ value, ∃ number, held = .int number ∧ minPriceCzk ≤ number ∧ number ≤ maxPriceCzk

/-- A row of the batch that can be stored. -/
structure Storable (row : Row) : Prop where
  integers : ∀ column, HoldsInt4 (row.integers column)
  numerics : ∀ column, HoldsArea column (row.numerics column)
  price : HoldsPrice (row.integers .priceCzk)

theorem coerceInteger_int {value held : PyValue} (coerced : coerceInteger value = some held) :
    ∃ number, held = .int number := by
  cases value with
  | int number => exact ⟨number, (Option.some.inj coerced).symm⟩
  | float value =>
      cases value with
      | nan => cases coerced
      | infinite negative => cases coerced
      | finite value printed => exact ⟨_, (Option.some.inj coerced).symm⟩

theorem stage_int4 (row : Row) (column : IntegerColumn) : HoldsInt4 ((stage row).integers column) := by
  intro held kept
  obtain ⟨passed, inside⟩ := Option.filter_eq_some_iff.mp kept
  obtain ⟨value, _, coerced⟩ := Option.bind_eq_some_iff.mp passed
  obtain ⟨number, rfl⟩ := coerceInteger_int coerced
  exact ⟨number, rfl, of_decide_eq_true inside⟩

/-- The price cap is met before the rounding, which keeps it. -/
theorem stage_price (row : Row) : HoldsPrice ((stage row).integers .priceCzk) := by
  intro held kept
  obtain ⟨passed, _⟩ := Option.filter_eq_some_iff.mp kept
  obtain ⟨value, sane, coerced⟩ := Option.bind_eq_some_iff.mp passed
  obtain ⟨_, capped⟩ := Option.filter_eq_some_iff.mp sane
  rw [Bool.and_eq_true, Bool.not_eq_true', Bool.not_eq_true'] at capped
  cases value with
  | int number =>
      cases coerced
      exact ⟨number, rfl, not_lt.mp (of_decide_eq_false capped.2),
        not_lt.mp (of_decide_eq_false capped.1)⟩
  | float value =>
      cases value with
      | nan => cases coerced
      | infinite negative => cases coerced
      | finite value printed =>
          cases coerced
          exact ⟨_, rfl, roundHalfEven_bounds (not_lt.mp (of_decide_eq_false capped.2))
            (not_lt.mp (of_decide_eq_false capped.1))⟩

/-! ### The areas -/

/-- A float is taken out, or its decimal is neither under half a tenth nor within half a tenth of
the column's range. -/
def Fits (column : NumericColumn) : PyValue → Prop
  | .float (.finite value printed) =>
      value = 0 ∨ (column.absMax : ℚ) ≤ |value| ∨
        1 / 20 ≤ |printed| ∧ |printed| < column.absMax - 1 / 20
  | _ => True

theorem absMax_eq (column : NumericColumn) :
    (column.absMax : ℚ) = 10 ^ (column.precision - 1) := by
  cases column <;> norm_num [NumericColumn.absMax, NumericColumn.precision]

theorem holdsArea_iff {column : NumericColumn} {value : PyValue} {numeral : ℚ}
    (prints : value.numeral = some numeral) : HoldsArea column (some value) ↔
      1 / 20 ≤ |numeral| ∧ |numeral| < column.absMax - 1 / 20 := by
  unfold HoldsArea
  rw [← roundTenth_ne_zero, ← abs_roundTenth_lt, absMax_eq]
  constructor
  · intro held
    obtain ⟨other, also, under, stands⟩ := held value rfl
    rw [prints] at also
    cases also
    exact ⟨stands, under⟩
  · rintro ⟨stands, under⟩ held ⟨⟩
    exact ⟨numeral, prints, under, stands⟩

/-- Through the passes a numeric column keeps a value, or nothing. -/
def passed (column : NumericColumn) (value : PyValue) : Option PyValue :=
  (coerceNumeric value).filter fun value => !value.isZero && !value.absReaches column.absMax

theorem stage_numerics (row : Row) (column : NumericColumn) :
    (stage row).numerics column = (row.numerics column).bind (passed column) := by
  change ((row.numerics column).bind coerceNumeric).filter _ = _
  cases row.numerics column with
  | none => rfl
  | some value => rfl

theorem passed_holdsArea_iff (column : NumericColumn) (value : PyValue) :
    HoldsArea column (passed column value) ↔ Fits column value := by
  cases value with
  | int number =>
      refine ⟨fun _ => trivial, fun _ => ?_⟩
      intro held kept
      obtain ⟨same, sane⟩ := Option.filter_eq_some_iff.mp kept
      cases same
      simp only [PyValue.isZero, PyValue.absReaches, Bool.and_eq_true, Bool.not_eq_true',
        decide_eq_false_iff_not, not_le] at sane
      refine ⟨number, rfl, ?_, ?_⟩
      · rw [roundTenth_int, ← absMax_eq]
        exact_mod_cast sane.2
      · rw [roundTenth_int]
        exact_mod_cast sane.1
  | float value =>
      cases value with
      | nan => exact ⟨fun _ => trivial, fun _ held none_ => by cases none_⟩
      | infinite negative => exact ⟨fun _ => trivial, fun _ held none_ => by cases none_⟩
      | finite value printed =>
          unfold passed Fits
          dsimp only [coerceNumeric]
          by_cases zero : value = 0
          · refine ⟨fun _ => .inl zero, fun _ held kept => ?_⟩
            have sane := (Option.filter_eq_some_iff.mp kept).2
            simp [PyValue.isZero, (Option.some.inj (Option.filter_eq_some_iff.mp kept).1).symm,
              zero] at sane
          · by_cases wide : (column.absMax : ℚ) ≤ |value|
            · refine ⟨fun _ => .inr (.inl wide), fun _ held kept => ?_⟩
              have sane := (Option.filter_eq_some_iff.mp kept).2
              simp [PyValue.absReaches, (Option.some.inj (Option.filter_eq_some_iff.mp kept).1).symm,
                wide] at sane
            · have kept : (some (PyValue.float (.finite value printed))).filter
                  (fun value => !value.isZero && !value.absReaches column.absMax) =
                    some (.float (.finite value printed)) := by
                rw [Option.filter_eq_some_iff]
                simp [PyValue.isZero, PyValue.absReaches, zero, wide]
              rw [kept, @holdsArea_iff column _ printed rfl]
              simp only [zero, wide, false_or]

/-- Every row of a batch can be stored exactly when each float of an area column is taken out, or
prints a decimal the column neither rounds to nothing nor past its range. -/
theorem staged_storable_iff (row : Row) :
    Storable (stage row) ↔ ∀ column, ∀ value ∈ row.numerics column, Fits column value := by
  constructor
  · intro storable column value held
    have area := storable.numerics column
    rw [stage_numerics, Option.mem_def.mp held, Option.bind_some] at area
    exact (passed_holdsArea_iff column value).mp area
  · intro fits
    refine ⟨stage_int4 row, fun column => ?_, stage_price row⟩
    rw [stage_numerics]
    cases found : row.numerics column with
    | none => exact fun _ none_ => by cases none_
    | some value =>
        rw [Option.bind_some]
        exact (passed_holdsArea_iff column value).mpr (fits column value found)

/-! ### A float short of the range, and one short of a tenth -/

def areaOf (value : ℚ) : Row where
  integers := fun _ => none
  numerics := fun column => if column = .areaM2 then some (.float (.finite value value)) else none

/-- The first overflows `numeric(7,1)`, the second is stored as a zero area. -/
theorem half_a_tenth_passes :
    ¬Storable (stage (areaOf (99999997 / 100))) ∧ ¬Storable (stage (areaOf (1 / 25))) ∧
      ((stage (areaOf (99999997 / 100))).numerics .areaM2).map (storeNumeric .areaM2) = some none ∧
      ((stage (areaOf (1 / 25))).numerics .areaM2).map (storeNumeric .areaM2) = some (some 0) := by
  refine ⟨?_, ?_, by decide +kernel, by decide +kernel⟩
  · rw [staged_storable_iff]
    intro fits
    have area := fits .areaM2 (.float (.finite (99999997 / 100) (99999997 / 100))) (by rfl)
    revert area
    norm_num [Fits, NumericColumn.absMax, abs_of_pos]
  · rw [staged_storable_iff]
    intro fits
    have area := fits .areaM2 (.float (.finite (1 / 25) (1 / 25))) (by rfl)
    revert area
    norm_num [Fits, NumericColumn.absMax, abs_of_pos]

end Sreality.Scraper.Sanitizers
